import MeasuredIdentity.Enrollment.Layout
import MeasuredIdentity.Proofs.Sequencing
import Mathlib.Tactic.SplitIfs

/-!
The layout of a firmware binary. Two images are cut out of it exactly if the map has all addresses
and both images lie inside the binary; and then they are what lies between their addresses. Otherwise
the error is about the first thing that is missing or wrong. Addresses are compared as numbers, so no
difference of them wraps around.
-/
namespace MeasuredIdentity.Enrollment

/-- The bytes from one address up to another, in a binary that begins at the origin. -/
structure IsSection (binary : Bytes) (origin start stop : UInt64) (bytes : Bytes) : Prop where
  origin_le : origin ≤ start
  le_stop : start ≤ stop
  split : ∃ before after, binary = before ++ bytes ++ after ∧
    before.length = start.toNat - origin.toNat ∧ bytes.length = stop.toNat - start.toNat

theorem offset_eq_ok_iff {name : String} {origin address a : UInt64} :
    offset name origin address = .ok a ↔ origin ≤ address ∧ a = address - origin := by
  unfold offset
  split_ifs with h <;> simp [h, eq_comm]

theorem offset_eq_error_iff {name : String} {origin address : UInt64} {e : LayoutError} :
    offset name origin address = .error e ↔
      address < origin ∧ e = .belowOrigin name address origin := by
  unfold offset
  split_ifs with h
  · simp [UInt64.not_lt.2 h]
  · simp [UInt64.not_le.1 h, eq_comm]

/-- Taking and dropping leaves what lies between. -/
theorem take_drop_eq_iff {α : Type} {l part : List α} {first size : Nat}
    (h : first + size ≤ l.length) : (l.drop first).take size = part ↔
      ∃ before after, l = before ++ part ++ after ∧ before.length = first ∧ part.length = size := by
  constructor
  · rintro rfl
    refine ⟨l.take first, (l.drop first).drop size, ?_, ?_, ?_⟩
    · rw [List.append_assoc, List.take_append_drop, List.take_append_drop]
    · rw [List.length_take]
      omega
    · rw [List.length_take, List.length_drop]
      omega
  · rintro ⟨before, after, rfl, rfl, rfl⟩
    rw [List.append_assoc, List.drop_left, List.take_left]

section Section

variable {binary bytes : Bytes} {name : String} {origin start stop : UInt64}

/-- Addresses in order have offsets in order, as far apart as they are themselves. -/
theorem cutSection_eq_ok_iff_of_le (horigin : origin ≤ start) (hstop : start ≤ stop) :
    cutSection binary name origin start stop = .ok bytes ↔
      stop.toNat - origin.toNat ≤ binary.length ∧
      (binary.drop (start.toNat - origin.toNat)).take (stop.toNat - start.toNat) = bytes := by
  have hlast : origin ≤ stop := UInt64.le_trans horigin hstop
  have hfirstOffset := UInt64.toNat_sub_of_le start origin horigin
  have hlastOffset := UInt64.toNat_sub_of_le stop origin hlast
  have hsize : (stop - origin).toNat - (start - origin).toNat = stop.toNat - start.toNat := by
    have horiginNat := UInt64.le_iff_toNat_le.1 horigin
    omega
  unfold cutSection
  rw [if_neg (UInt64.not_lt.2 hstop)]
  simp only [bind_eq_ok_iff, offset_eq_ok_iff]
  constructor
  · rintro ⟨_, ⟨-, rfl⟩, _, ⟨-, rfl⟩, h⟩
    split at h
    · cases h
    · rename_i hfits
      rw [hsize, hfirstOffset, pure_eq_ok_iff] at h
      exact ⟨hlastOffset ▸ Nat.le_of_not_lt hfits, h⟩
  · rintro ⟨hfits, h⟩
    refine ⟨_, ⟨horigin, rfl⟩, _, ⟨hlast, rfl⟩, ?_⟩
    rw [if_neg (by omega), hsize, hfirstOffset, h]
    rfl

theorem le_of_cutSection (h : cutSection binary name origin start stop = .ok bytes) :
    origin ≤ start ∧ start ≤ stop := by
  have hstop : start ≤ stop := by
    rw [← UInt64.not_lt]
    intro hreversed
    rw [cutSection, if_pos hreversed] at h
    cases h
  rw [cutSection, if_neg (UInt64.not_lt.2 hstop), bind_eq_ok_iff] at h
  obtain ⟨_, hfirst, -⟩ := h
  exact ⟨(offset_eq_ok_iff.1 hfirst).1, hstop⟩

theorem cutSection_eq_ok_iff : cutSection binary name origin start stop = .ok bytes ↔
    IsSection binary origin start stop bytes := by
  constructor
  · intro h
    obtain ⟨horigin, hstop⟩ := le_of_cutSection h
    obtain ⟨hfits, hbytes⟩ := (cutSection_eq_ok_iff_of_le horigin hstop).1 h
    have horiginNat := UInt64.le_iff_toNat_le.1 horigin
    have hstopNat := UInt64.le_iff_toNat_le.1 hstop
    exact ⟨horigin, hstop, (take_drop_eq_iff (by omega)).1 hbytes⟩
  · rintro ⟨horigin, hstop, hsplit⟩
    have horiginNat := UInt64.le_iff_toNat_le.1 horigin
    have hstopNat := UInt64.le_iff_toNat_le.1 hstop
    have hfits : stop.toNat - origin.toNat ≤ binary.length := by
      obtain ⟨before, after, rfl, hbefore, hbytes⟩ := hsplit
      simp only [List.length_append]
      omega
    exact (cutSection_eq_ok_iff_of_le horigin hstop).2
      ⟨hfits, (take_drop_eq_iff (by omega)).2 hsplit⟩

/-- From one address up to another lies in a binary that begins at the origin. -/
structure InBinary (binary : Bytes) (origin start stop : UInt64) : Prop where
  origin_le : origin.toNat ≤ start.toNat
  le_stop : start.toNat ≤ stop.toNat
  stop_le : stop.toNat ≤ origin.toNat + binary.length

theorem inBinary_of_isSection (h : IsSection binary origin start stop bytes) :
    InBinary binary origin start stop := by
  obtain ⟨horigin, hstop, before, after, rfl, hbefore, hbytes⟩ := h
  have horigin := UInt64.le_iff_toNat_le.1 horigin
  have hstop := UInt64.le_iff_toNat_le.1 hstop
  refine ⟨horigin, hstop, ?_⟩
  simp only [List.length_append]
  omega

/-- What is wrong with the range of an image, by the first of its bounds that does not hold. The
offsets of the last case are those of both addresses from the origin. -/
inductive RangeFault (binary : Bytes) (image : String) (origin start stop : UInt64) :
    LayoutError → Prop
  | reversed (hstop : stop.toNat < start.toNat) :
      RangeFault binary image origin start stop (.reversed image start stop)
  | belowOrigin (hstop : start.toNat ≤ stop.toNat) (horigin : start.toNat < origin.toNat) :
      RangeFault binary image origin start stop (.belowOrigin image start origin)
  | pastEnd {first last : UInt64} (hstop : start.toNat ≤ stop.toNat)
      (hfirst : origin.toNat + first.toNat = start.toNat)
      (hlast : origin.toNat + last.toNat = stop.toNat) (hend : binary.length < last.toNat) :
      RangeFault binary image origin start stop (.pastEnd image first last binary.length)

theorem RangeFault.not_inBinary {e : LayoutError} (h : RangeFault binary name origin start stop e) :
    ¬ InBinary binary origin start stop := by
  intro ⟨horigin, hstop, hend⟩
  cases h with
  | reversed hreversed => omega
  | belowOrigin _ hbelow => omega
  | pastEnd _ _ hlast hpast => omega

theorem add_toNat_offset {address a : UInt64} (h : offset name origin address = .ok a) :
    origin.toNat + a.toNat = address.toNat := by
  obtain ⟨horigin, rfl⟩ := offset_eq_ok_iff.1 h
  have hle := UInt64.le_iff_toNat_le.1 horigin
  rw [UInt64.toNat_sub_of_le _ _ horigin]
  omega

theorem rangeFault_of_cutSection {e : LayoutError}
    (h : cutSection binary name origin start stop = .error e) :
    RangeFault binary name origin start stop e := by
  by_cases hreversed : stop < start
  · rw [cutSection, if_pos hreversed] at h
    cases h
    exact .reversed (UInt64.lt_iff_toNat_lt.1 hreversed)
  have hstop := UInt64.le_iff_toNat_le.1 (UInt64.not_lt.1 hreversed)
  rw [cutSection, if_neg hreversed] at h
  obtain h | ⟨first, hfirst, h⟩ := bind_eq_error_iff.1 h
  · obtain ⟨hbelow, rfl⟩ := offset_eq_error_iff.1 h
    exact .belowOrigin hstop (UInt64.lt_iff_toNat_lt.1 hbelow)
  have hfirst := add_toNat_offset hfirst
  obtain h | ⟨last, hlast, h⟩ := bind_eq_error_iff.1 h
  · -- The end of the range is not below the origin, since its start is not.
    obtain ⟨hbelow, -⟩ := offset_eq_error_iff.1 h
    have hbelow := UInt64.lt_iff_toNat_lt.1 hbelow
    omega
  · split at h
    next hend =>
      cases h
      exact .pastEnd hstop hfirst (add_toNat_offset hlast) hend
    next => cases h

end Section

namespace Images

/-- The map has an origin and an address for both ends of both images, and between them the images
lie in the binary. -/
def AreIn (images : Images) (binary : Bytes) (map : LinkMap) : Prop :=
  ∃ origin coreFirst coreLast firmwareFirst firmwareLast, map.flashOrigin = some origin ∧
    map.symbol? coreStart = some coreFirst ∧ map.symbol? coreStop = some coreLast ∧
    map.symbol? firmwareStart = some firmwareFirst ∧ map.symbol? firmwareStop = some firmwareLast ∧
    IsSection binary origin coreFirst coreLast images.core ∧
    IsSection binary origin firmwareFirst firmwareLast images.firmware

end Images

theorem LinkMap.symbol_eq_ok_iff {m : LinkMap} {name : String} {address : UInt64} :
    m.symbol name = .ok address ↔ m.symbol? name = some address := by
  unfold symbol
  cases m.symbol? name <;> simp

theorem LinkMap.origin_eq_ok_iff {m : LinkMap} {address : UInt64} :
    m.origin = .ok address ↔ m.flashOrigin = some address := by
  unfold origin
  cases m.flashOrigin <;> simp

theorem Images.cut_eq_ok_iff {binary : Bytes} {map : LinkMap} {images : Images} :
    Images.cut binary map = .ok images ↔ images.AreIn binary map := by
  simp only [cut, bind_eq_ok_iff, pure_eq_ok_iff, LinkMap.symbol_eq_ok_iff,
    LinkMap.origin_eq_ok_iff, cutSection_eq_ok_iff]
  constructor
  · rintro ⟨a, ha, b, hb, c, hc, d, hd, origin, horigin, core, hcore, firmware, hfirmware, rfl⟩
    exact ⟨origin, a, b, c, d, horigin, ha, hb, hc, hd, hcore, hfirmware⟩
  · rintro ⟨origin, a, b, c, d, horigin, ha, hb, hc, hd, hcore, hfirmware⟩
    exact ⟨a, ha, b, hb, c, hc, d, hd, origin, horigin, _, hcore, _, hfirmware, rfl⟩

theorem LinkMap.symbol_eq_error_iff {m : LinkMap} {name : String} {e : LayoutError} :
    m.symbol name = .error e ↔ m.symbol? name = none ∧ e = .symbolMissing name := by
  unfold symbol
  cases m.symbol? name <;> simp [eq_comm]

theorem LinkMap.origin_eq_error_iff {m : LinkMap} {e : LayoutError} :
    m.origin = .error e ↔ m.flashOrigin = none ∧ e = .noFlashRegion := by
  unfold origin
  cases m.flashOrigin <;> simp [eq_comm]

/-- What a layout needs: the address of a symbol, the origin of the flash memory, or that an image
lies in the binary, from the address of one symbol up to that of another. -/
inductive Requirement where
  | symbol (name : String)
  | origin
  | range (image first last : String)

namespace Requirement

/-- The two symbols and the origin have these addresses. -/
structure Located (map : LinkMap) (first last : String) (origin start stop : UInt64) : Prop where
  origin_eq : map.flashOrigin = some origin
  start_eq : map.symbol? first = some start
  stop_eq : map.symbol? last = some stop

def Met (binary : Bytes) (map : LinkMap) : Requirement → Prop
  | symbol name => ∃ address, map.symbol? name = some address
  | origin => ∃ address, map.flashOrigin = some address
  | range _ first last => ∃ origin start stop, Located map first last origin start stop ∧
      InBinary binary origin start stop

/-- The error tells that the requirement is not met. -/
def ReportedBy (binary : Bytes) (map : LinkMap) (e : LayoutError) : Requirement → Prop
  | symbol name => map.symbol? name = none ∧ e = .symbolMissing name
  | origin => map.flashOrigin = none ∧ e = .noFlashRegion
  | range image first last => ∃ origin start stop, Located map first last origin start stop ∧
      RangeFault binary image origin start stop e

/-- What the requirement is about: a symbol, the region of the flash memory, or an image. -/
def subject : Requirement → String
  | symbol name => name
  | origin => LinkMap.flashRegion
  | range image _ _ => image

variable {binary : Bytes} {map : LinkMap} {e : LayoutError} {r : Requirement}

theorem ReportedBy.not_met (h : r.ReportedBy binary map e) : ¬ r.Met binary map := by
  cases r with
  | symbol name =>
    rintro ⟨_, hsome⟩
    exact nomatch h.1.symm.trans hsome
  | origin =>
    rintro ⟨_, hsome⟩
    exact nomatch h.1.symm.trans hsome
  | range image first last =>
    obtain ⟨_, _, _, ⟨horigin, hstart, hstop⟩, hfault⟩ := h
    rintro ⟨_, _, _, ⟨horigin', hstart', hstop'⟩, hin⟩
    cases horigin.symm.trans horigin'
    cases hstart.symm.trans hstart'
    cases hstop.symm.trans hstop'
    exact hfault.not_inBinary hin

/-- The message of a report names what it is about. -/
theorem ReportedBy.subject_isInfix (h : r.ReportedBy binary map e) :
    r.subject.toList <:+: e.message.toList := by
  cases r with
  | symbol name =>
    obtain ⟨-, rfl⟩ := h
    exact ⟨_, _, by rw [LayoutError.message, String.toList_append, String.toList_append]; rfl⟩
  | origin =>
    obtain ⟨-, rfl⟩ := h
    refine ⟨"no ".toList, " region in the map Memory Configuration".toList, ?_⟩
    rw [← String.toList_append, ← String.toList_append]
    exact congrArg String.toList (by decide)
  | range image first last =>
    obtain ⟨_, _, _, -, hfault⟩ := h
    apply List.IsPrefix.isInfix
    cases hfault <;> simp only [subject, LayoutError.message, String.toList_append,
      List.append_assoc, List.prefix_append]

end Requirement

namespace Images

open Requirement

/-- All that a layout needs, in the order in which it is looked at. -/
def requirements : List Requirement :=
  [symbol coreStart, symbol coreStop, symbol firmwareStart, symbol firmwareStop, origin,
    range coreName coreStart coreStop, range firmwareName firmwareStart firmwareStop]

/-- The error reports the first requirement of a list that is not met. -/
def ReportsFirst (binary : Bytes) (map : LinkMap) (e : LayoutError) (rs : List Requirement) : Prop :=
  ∃ met r rest, rs = met ++ r :: rest ∧ (∀ q ∈ met, q.Met binary map) ∧ r.ReportedBy binary map e

variable {binary : Bytes} {map : LinkMap} {e : LayoutError} {r : Requirement}
  {rs : List Requirement}

theorem ReportsFirst.here (h : r.ReportedBy binary map e) : ReportsFirst binary map e (r :: rs) :=
  ⟨[], r, rs, rfl, by simp, h⟩

theorem ReportsFirst.later (hr : r.Met binary map) (h : ReportsFirst binary map e rs) :
    ReportsFirst binary map e (r :: rs) := by
  obtain ⟨met, q, rest, rfl, hmet, hq⟩ := h
  exact ⟨r :: met, q, rest, rfl, List.forall_mem_cons.2 ⟨hr, hmet⟩, hq⟩

/-- A missing symbol is reported, and with its address the steps go on. -/
theorem ReportsFirst.of_symbol {α : Type} {name : String} {f : UInt64 → Except LayoutError α}
    (h : (map.symbol name >>= f) = .error e)
    (hrest : ∀ a, map.symbol? name = some a → f a = .error e → ReportsFirst binary map e rs) :
    ReportsFirst binary map e (symbol name :: rs) := by
  obtain h | ⟨a, ha, h⟩ := bind_eq_error_iff.1 h
  · exact .here (LinkMap.symbol_eq_error_iff.1 h)
  · have ha := LinkMap.symbol_eq_ok_iff.1 ha
    exact .later ⟨a, ha⟩ (hrest a ha h)

/-- An image that is not in the binary is reported, and with its bytes the steps go on. -/
theorem ReportsFirst.of_section {α : Type} {image first last : String} {origin start stop : UInt64}
    {f : Bytes → Except LayoutError α} (hlocated : Located map first last origin start stop)
    (h : (cutSection binary image origin start stop >>= f) = .error e)
    (hrest : ∀ bytes, f bytes = .error e → ReportsFirst binary map e rs) :
    ReportsFirst binary map e (range image first last :: rs) := by
  obtain h | ⟨bytes, hbytes, h⟩ := bind_eq_error_iff.1 h
  · exact .here ⟨_, _, _, hlocated, rangeFault_of_cutSection h⟩
  · have hin := inBinary_of_isSection (cutSection_eq_ok_iff.1 hbytes)
    exact .later ⟨_, _, _, hlocated, hin⟩ (hrest bytes h)

theorem reportsFirst_of_cut (h : cut binary map = .error e) :
    ReportsFirst binary map e requirements := by
  refine .of_symbol h ?_
  intro coreFirst ha h
  refine .of_symbol h ?_
  intro coreLast hb h
  refine .of_symbol h ?_
  intro firmwareFirst hc h
  refine .of_symbol h ?_
  intro firmwareLast hd h
  obtain h | ⟨origin, horigin, h⟩ := bind_eq_error_iff.1 h
  · exact .here (LinkMap.origin_eq_error_iff.1 h)
  have horigin := LinkMap.origin_eq_ok_iff.1 horigin
  refine .later ⟨origin, horigin⟩ ?_
  refine .of_section ⟨horigin, ha, hb⟩ h ?_
  intro core h
  refine .of_section ⟨horigin, hc, hd⟩ h ?_
  intro firmware h
  cases h

theorem AreIn.met {images : Images} (h : images.AreIn binary map) :
    ∀ r ∈ requirements, r.Met binary map := by
  obtain ⟨origin, _, _, _, _, horigin, ha, hb, hc, hd, hcore, hfirmware⟩ := h
  simp only [requirements, List.forall_mem_cons, List.not_mem_nil, false_implies, implies_true,
    and_true]
  exact ⟨⟨_, ha⟩, ⟨_, hb⟩, ⟨_, hc⟩, ⟨_, hd⟩, ⟨_, horigin⟩,
    ⟨_, _, _, ⟨horigin, ha, hb⟩, inBinary_of_isSection hcore⟩,
    ⟨_, _, _, ⟨horigin, hc, hd⟩, inBinary_of_isSection hfirmware⟩⟩

/-- Cutting succeeds exactly if every requirement is met, and the images are what lies between their
addresses. Otherwise the error reports the first requirement that is not met, and names it. -/
theorem cut_by_requirements (binary : Bytes) (map : LinkMap) :
    ((∃ images, cut binary map = .ok images) ↔ ∀ r ∈ requirements, r.Met binary map) ∧
    (∀ images, cut binary map = .ok images ↔ images.AreIn binary map) ∧
    ∀ e, cut binary map = .error e → ∃ met r rest, requirements = met ++ r :: rest ∧
      (∀ q ∈ met, q.Met binary map) ∧ r.ReportedBy binary map e ∧
      r.subject.toList <:+: e.message.toList := by
  refine ⟨⟨?_, ?_⟩, fun images => cut_eq_ok_iff, ?_⟩
  · rintro ⟨images, himages⟩
    exact (cut_eq_ok_iff.1 himages).met
  · intro hmet
    rcases hcut : cut binary map with e | images
    · obtain ⟨met, r, rest, hlist, -, hr⟩ := reportsFirst_of_cut hcut
      have hmem : r ∈ requirements := by
        rw [hlist]
        exact List.mem_append_right met List.mem_cons_self
      exact absurd (hmet r hmem) hr.not_met
    · exact ⟨images, rfl⟩
  · intro e he
    obtain ⟨met, r, rest, hlist, hmet, hr⟩ := reportsFirst_of_cut he
    exact ⟨met, r, rest, hlist, hmet, hr, hr.subject_isInfix⟩

end Images

end MeasuredIdentity.Enrollment
