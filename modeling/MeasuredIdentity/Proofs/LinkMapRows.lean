import MeasuredIdentity.Enrollment.LinkMap
import MeasuredIdentity.Proofs.WordsAndLines

/-!
What a map file says. It is read by the words of its lines: the first line that declares the origin
of the flash memory counts, and of the lines that assign an address to a symbol the last one. All
other lines are passed over.
-/
namespace MeasuredIdentity.Enrollment.LinkMap

open Text

/-- The words of a line. -/
abbrev Row := List (List Char)

/-- A line `FLASH origin …` with an origin that can be read. -/
def Declares (origin : UInt64) (row : Row) : Prop :=
  ∃ token rest, row = flashRegion.toList :: token :: rest ∧ Address.parse? token = some origin

/-- A line `address name = …` with an address that can be read. -/
def Assigns (name : String) (address : UInt64) (row : Row) : Prop :=
  ∃ token rest, row = token :: name.toList :: ['='] :: rest ∧ Address.parse? token = some address

/-- The origin that a line declares. -/
def declaration? : Row → Option UInt64
  | first :: second :: _ =>
    if first = flashRegion.toList then Address.parse? second else none
  | _ => none

/-- The assignment that a line makes. -/
def assignment? : Row → Option (String × UInt64)
  | first :: second :: third :: _ =>
    if third = ['='] then (Address.parse? first).map fun address => (String.ofList second, address)
    else none
  | _ => none

variable {row : Row} {rows : List Row}

theorem declaration?_eq_some_iff {origin : UInt64} :
    declaration? row = some origin ↔ Declares origin row := by
  constructor
  · intro h
    match row with
    | [] => cases h
    | [_] => cases h
    | first :: second :: rest =>
      obtain ⟨rfl, h⟩ := Option.ite_none_right_eq_some.1 h
      exact ⟨second, rest, rfl, h⟩
  · rintro ⟨token, rest, rfl, h⟩
    rw [declaration?, if_pos rfl, h]

theorem assignment?_eq_some_iff {name : String} {address : UInt64} :
    assignment? row = some (name, address) ↔ Assigns name address row := by
  constructor
  · intro h
    match row with
    | [] => cases h
    | [_] => cases h
    | [_, _] => cases h
    | first :: second :: third :: rest =>
      obtain ⟨rfl, h⟩ := Option.ite_none_right_eq_some.1 h
      obtain ⟨a, ha, hpair⟩ := Option.map_eq_some_iff.1 h
      obtain ⟨rfl, rfl⟩ := Prod.mk.inj hpair
      exact ⟨first, rest, by rw [String.toList_ofList], ha⟩
  · rintro ⟨token, rest, rfl, h⟩
    simp [assignment?, h]

/-- What a line does to a map: a declaration counts if there is none so far, an assignment comes
in front of the others. The name of the region is no address, so no line is both. -/
theorem addLine_eq (m : LinkMap) (row : Row) : m.addLine row =
    ⟨m.flashOrigin.or (declaration? row), (assignment? row).toList ++ m.assignments⟩ := by
  have hregion : Address.parse? flashRegion.toList = none := by decide
  match row with
  | [] => simp [addLine, declaration?, assignment?]
  | [_] => simp [addLine, declaration?, assignment?]
  | first :: second :: rest =>
    by_cases hdeclares : first = flashRegion.toList ∧ m.flashOrigin = none
    · obtain ⟨rfl, hnone⟩ := hdeclares
      have hassignment : assignment? (flashRegion.toList :: second :: rest) = none := by
        cases rest <;> simp [assignment?, hregion]
      rw [addLine, if_pos ⟨rfl, hnone⟩, hassignment, hnone, Option.none_or, declaration?, if_pos rfl]
      rfl
    · have horigin : m.flashOrigin.or (declaration? (first :: second :: rest)) = m.flashOrigin := by
        cases hm : m.flashOrigin with
        | some origin => rfl
        | none => exact if_neg fun hfirst => hdeclares ⟨hfirst, hm⟩
      rw [addLine, if_neg hdeclares, horigin]
      cases rest with
      | nil => rfl
      | cons third rest =>
        by_cases hthird : third = ['=']
        · cases haddress : Address.parse? first <;> simp [assignment?, hthird, haddress]
        · simp [assignment?, hthird]

theorem foldl_addLine (rows : List Row) (m : LinkMap) : rows.foldl addLine m =
    ⟨m.flashOrigin.or (rows.findSome? declaration?),
      (rows.filterMap assignment?).reverse ++ m.assignments⟩ := by
  induction rows generalizing m with
  | nil => simp
  | cons row rows ih =>
    rw [List.foldl_cons, ih, addLine_eq, List.findSome?_cons, List.filterMap_cons]
    cases declaration? row <;> cases assignment? row <;> simp

theorem foldl_filter_ne_nil (rows : List Row) (m : LinkMap) :
    (rows.filter (· ≠ [])).foldl addLine m = rows.foldl addLine m := by
  rw [List.foldl_filter]
  congr 1
  funext m row
  cases row <;> rfl

theorem parse_eq (text : String) :
    parse text = ((lines text.toList).map words).foldl addLine {} := by
  rw [parse, ofLines, List.foldl_map]

/-- The map that lines with these words make. -/
def ofRows (rows : List Row) : LinkMap :=
  ⟨rows.findSome? declaration?, (rows.filterMap assignment?).reverse⟩

theorem foldl_addLine_empty (rows : List Row) : rows.foldl addLine {} = ofRows rows := by
  rw [foldl_addLine, List.append_nil]
  rfl

theorem parse_eq_of_isRows {text : String} (h : IsRows text.toList rows) :
    parse text = ofRows rows := by
  rw [parse_eq, ← foldl_filter_ne_nil, h.filter_eq, foldl_filter_ne_nil, foldl_addLine_empty]

/-- A line that neither declares nor assigns has no effect. -/
theorem ofRows_passOver {before after : List Row} (hdeclares : ∀ origin, ¬ Declares origin row)
    (hassigns : ∀ name address, ¬ Assigns name address row) :
    ofRows (before ++ row :: after) = ofRows (before ++ after) := by
  have hdeclaration : declaration? row = none :=
    Option.eq_none_iff_forall_ne_some.2 fun a h => hdeclares a (declaration?_eq_some_iff.1 h)
  have hassignment : assignment? row = none :=
    Option.eq_none_iff_forall_ne_some.2 fun p h => hassigns p.1 p.2 (assignment?_eq_some_iff.1 h)
  simp only [ofRows, List.findSome?_append, List.findSome?_cons, hdeclaration,
    List.filterMap_append, List.filterMap_cons_none hassignment]

/-- The first line of a file that gives a value, and the value. -/
def FirstGives (gives : UInt64 → Row → Prop) (rows : List Row) (value : UInt64) : Prop :=
  ∃ before row after, rows = before ++ row :: after ∧ gives value row ∧
    ∀ r ∈ before, ∀ other, ¬ gives other r

/-- The last line of a file that gives a value, and the value. -/
def LastGives (gives : UInt64 → Row → Prop) (rows : List Row) (value : UInt64) : Prop :=
  ∃ before row after, rows = before ++ row :: after ∧ gives value row ∧
    ∀ r ∈ after, ∀ other, ¬ gives other r

theorem flashOrigin_ofRows_eq_some_iff {origin : UInt64} :
    (ofRows rows).flashOrigin = some origin ↔ FirstGives Declares rows origin := by
  simp only [ofRows, List.findSome?_eq_some_iff, FirstGives, Option.eq_none_iff_forall_ne_some, ne_eq,
    declaration?_eq_some_iff]

theorem symbol?_ofRows_eq_some_iff {name : String} {address : UInt64} :
    (ofRows rows).symbol? name = some address ↔ LastGives (Assigns name) rows address := by
  show (rows.filterMap assignment?).reverse.lookup name = some address ↔ _
  rw [List.lookup_eq_some_iff]
  constructor
  · rintro ⟨later, earlier, hlist, hlater⟩
    have hassignments : rows.filterMap assignment? =
        earlier.reverse ++ (name, address) :: later.reverse := by
      rw [← List.reverse_reverse (rows.filterMap assignment?), hlist, List.reverse_append,
        List.reverse_cons, List.append_assoc, List.singleton_append]
    obtain ⟨front, back, rfl, -, hback⟩ := List.filterMap_eq_append_iff.1 hassignments
    obtain ⟨between, row, after, rfl, -, hrow, hafter⟩ := List.filterMap_eq_cons_iff.1 hback
    refine ⟨front ++ between, row, after, (List.append_assoc ..).symm,
      assignment?_eq_some_iff.1 hrow, ?_⟩
    intro r hr other hother
    have hmem : (name, other) ∈ later := by
      rw [← List.mem_reverse, ← hafter]
      exact List.mem_filterMap.2 ⟨r, hr, assignment?_eq_some_iff.2 hother⟩
    simpa using hlater _ hmem
  · rintro ⟨before, row, after, rfl, hrow, hafter⟩
    refine ⟨(after.filterMap assignment?).reverse, (before.filterMap assignment?).reverse, ?_, ?_⟩
    · rw [List.filterMap_append, List.filterMap_cons_some (assignment?_eq_some_iff.2 hrow),
        List.reverse_append, List.reverse_cons, List.append_assoc, List.singleton_append]
    · intro p hp
      obtain ⟨r, hr, hassignment⟩ := List.mem_filterMap.1 (List.mem_reverse.1 hp)
      rw [bne_iff_ne]
      rintro rfl
      exact hafter r hr p.2 (assignment?_eq_some_iff.1 hassignment)

/-- A map file in two parts: the origin is that of the first part if it has one, and symbols are
those of the second part before those of the first. -/
theorem parse_append {newline : String} (h : newline = "\n" ∨ newline = "\r\n")
    (front back : String) :
    (parse (front ++ newline ++ back)).flashOrigin =
      (parse front).flashOrigin.or (parse back).flashOrigin ∧
    ∀ name, (parse (front ++ newline ++ back)).symbol? name =
      ((parse back).symbol? name).or ((parse front).symbol? name) := by
  have hnewline : newline.toList = ['\n'] ∨ newline.toList = ['\r', '\n'] := by
    obtain rfl | rfl := h
    · exact .inl rfl
    · exact .inr rfl
  simp only [parse_eq, foldl_addLine_empty, ofRows, symbol?, String.toList_append,
    map_words_lines_append hnewline, List.findSome?_append, List.filterMap_append,
    List.reverse_append, List.lookup_append, implies_true, and_self]

/-- A map file is read by the words of its lines, into which each text is cut in one way. The origin
is that of the first line that declares one, the address of a symbol that of the last line that
assigns one. Neither white space nor other lines make a difference, and a file in two parts is read
part by part. -/
theorem parse_by_rows :
    (∀ text : String, ∃! rows, IsRows text.toList rows) ∧
    (∀ (text : String) (rows : List Row), IsRows text.toList rows →
      (∀ origin, (parse text).flashOrigin = some origin ↔ FirstGives Declares rows origin) ∧
      ∀ name address,
        (parse text).symbol? name = some address ↔ LastGives (Assigns name) rows address) ∧
    (∀ (text text' : String) (rows : List Row), IsRows text.toList rows → IsRows text'.toList rows →
      parse text = parse text') ∧
    (∀ (text text' : String) (before : List Row) (row : Row) (after : List Row),
      IsRows text.toList (before ++ row :: after) → IsRows text'.toList (before ++ after) →
      (∀ origin, ¬ Declares origin row) → (∀ name address, ¬ Assigns name address row) →
      parse text = parse text') ∧
    ∀ front back newline : String, newline = "\n" ∨ newline = "\r\n" →
      (parse (front ++ newline ++ back)).flashOrigin =
        (parse front).flashOrigin.or (parse back).flashOrigin ∧
      ∀ name, (parse (front ++ newline ++ back)).symbol? name =
        ((parse back).symbol? name).or ((parse front).symbol? name) := by
  refine ⟨fun text => existsUnique_isRows text.toList, ?_, ?_, ?_, ?_⟩
  · intro text rows h
    rw [parse_eq_of_isRows h]
    exact ⟨fun origin => flashOrigin_ofRows_eq_some_iff, fun name address => symbol?_ofRows_eq_some_iff⟩
  · intro text text' rows h h'
    rw [parse_eq_of_isRows h, parse_eq_of_isRows h']
  · intro text text' before row after h h' hdeclares hassigns
    rw [parse_eq_of_isRows h, parse_eq_of_isRows h', ofRows_passOver hdeclares hassigns]
  · intro front back newline hnewline
    exact parse_append hnewline front back

/-- The first origin cannot be read, and the symbol has two addresses. -/
def sampleText : String := "FLASH zz\r\n\tFLASH  0x10 =\n 0x1 a = 1\r\n0X02\u3000a = b"

def sampleRows : List Row :=
  [["FLASH", "zz"], ["FLASH", "0x10", "="], ["0x1", "a", "=", "1"], ["0X02", "a", "=", "b"]].map
    (·.map String.toList)

theorem isRows_sampleText : IsRows sampleText.toList sampleRows := by
  have htext : sampleText.toList = "FLASH zz\r".toList ++ '\n' :: ("\tFLASH  0x10 =".toList ++ '\n' ::
      (" 0x1 a = 1\r".toList ++ '\n' :: "0X02\u3000a = b".toList)) := by decide
  rw [htext]
  exact ⟨_, .ended (by decide) (.ended (by decide) (.ended (by decide)
    (.unended (by decide) (by decide)))), forall₂_spells_iff.2 (by decide)⟩

/-- The lines of the sample count as told, and a line break of the other kind joins it with another
file. -/
theorem parse_by_rows_sample : IsRows sampleText.toList sampleRows ∧
    (parse sampleText).flashOrigin = some 0x10 ∧ (parse sampleText).symbol? "a" = some 0x02 ∧
    (parse (sampleText ++ "\r\n" ++ "FLASH 0x20")).flashOrigin = some 0x10 := by
  obtain ⟨-, hreads, -, -, hjoined⟩ := parse_by_rows
  obtain ⟨horigin, hsymbol⟩ := hreads sampleText sampleRows isRows_sampleText
  have hfirst : (parse sampleText).flashOrigin = some 0x10 := by
    rw [horigin, ← flashOrigin_ofRows_eq_some_iff]
    decide
  refine ⟨isRows_sampleText, hfirst, ?_, ?_⟩
  · rw [hsymbol, ← symbol?_ofRows_eq_some_iff]
    decide
  · rw [(hjoined sampleText "FLASH 0x20" "\r\n" (.inr rfl)).1, hfirst]
    rfl

end MeasuredIdentity.Enrollment.LinkMap
