import MeasuredIdentity.Credentials
import MeasuredIdentity.Proofs.BigEndian
import MeasuredIdentity.Proofs.FirstCandidate
import MeasuredIdentity.Proofs.IssuedCredentials
import MeasuredIdentity.Proofs.WorkingState

/-!
The seeds of the keys lose nothing of what they are derived from. Where two derivations meet in a
seed, they started from the same secret, core image and firmware, or two different messages that
they have hashed at the same step have one digest. The statements name the messages, since two such
messages exist somewhere for every hash. The seeds are the ones that the keys of both layers are derived
with.
-/
namespace MeasuredIdentity

theorem Octets.append_inj {m n : ℕ} {a b : Octets m} {c d : Octets n}
    (h : a.toList ++ c.toList = b.toList ++ d.toList) : a = b ∧ c = d := by
  have hlength : a.toList.length = b.toList.length := by
    rw [a.length_toList, b.length_toList]
  obtain ⟨hab, hcd⟩ := List.append_inj h hlength
  exact ⟨Octets.ext hab, Octets.ext hcd⟩

/-- Different messages with the same digest. -/
def IsCollision (a b : Bytes) : Prop := a ≠ b ∧ sha256 a = sha256 b

instance (a b : Bytes) : Decidable (IsCollision a b) := inferInstanceAs (Decidable (_ ∧ _))

/-- Two lists of messages have a collision at one place of both. -/
def Collide (ms ns : List Bytes) : Prop := ∃ p ∈ ms.zip ns, IsCollision p.1 p.2

instance (ms ns : List Bytes) : Decidable (Collide ms ns) :=
  inferInstanceAs (Decidable (∃ p ∈ ms.zip ns, IsCollision p.1 p.2))

theorem eq_of_not_collide {ms ns : List Bytes} (h : ¬ Collide ms ns) {a b : Bytes}
    (hmem : (a, b) ∈ ms.zip ns) (hdigest : sha256 a = sha256 b) : a = b := by
  by_contra hne
  exact h ⟨(a, b), hmem, hne, hdigest⟩

theorem Collide.append {ms ns : List Bytes} (h : Collide ms ns) (hlength : ms.length = ns.length)
    (ms' ns' : List Bytes) : Collide (ms ++ ms') (ns ++ ns') := by
  obtain ⟨p, hp, hcollision⟩ := h
  refine ⟨p, ?_, hcollision⟩
  rw [List.zip_append hlength]
  exact List.mem_append_left _ hp

open LayerKeys

/-- An alias seed is the digest of 64 bytes and a device seed that of 32. -/
theorem isCollision_of_aliasSeed_eq_deviceSeed {cdi cdi' : Cdi} {firmware : Digest}
    (h : aliasSeed cdi firmware = deviceSeed cdi') :
    IsCollision ((deviceSeed cdi).toList ++ firmware.toList) cdi'.bytes.toList := by
  refine ⟨?_, h⟩
  intro heq
  have hlength := congrArg List.length heq
  rw [List.length_append, Octets.length_toList, Octets.length_toList, Octets.length_toList] at hlength
  cases hlength

/-- A key is the first candidate that the expansion of its seed gives for the label and a counter. -/
theorem exists_candidates (seed label : Bytes) : ∃ c : ℕ → Octets 32,
    (∀ n, KeyDerivation.expand KeyDerivation.keySalt seed (KeyDerivation.candidateInfo label n) 32 =
      .ok (c n)) ∧ KeyDerivation.EndsAtFirst c (KeyDerivation.privateKey seed label) := by
  have hlength : 32 ≤ Hkdf.maxLength := by decide
  have hexpand (n : ℕ) := KeyDerivation.expand_eq KeyDerivation.keySalt seed
    (KeyDerivation.candidateInfo label n) hlength
  exact ⟨_, hexpand, KeyDerivation.endsAtFirst_privateKeyWith fun n _ => hexpand n⟩

/-- The counter takes the last four bytes, so the label is what stands before them. -/
theorem candidateInfo_inj {label label' : Bytes} {n n' : ℕ} (hn : n < 2 ^ 32) (hn' : n' < 2 ^ 32)
    (h : KeyDerivation.candidateInfo label n = KeyDerivation.candidateInfo label' n') :
    label = label' ∧ n = n' := by
  have hcounters : (Bytes.ofNat 4 n).length = (Bytes.ofNat 4 n').length := by
    rw [Bytes.length_ofNat, Bytes.length_ofNat]
  obtain ⟨hlabel, hcounter⟩ := List.append_inj' h hcounters
  refine ⟨hlabel, ?_⟩
  calc
    n = Bytes.toNat (Bytes.ofNat 4 n) := (Bytes.toNat_ofNat_of_lt hn).symm
    _ = Bytes.toNat (Bytes.ofNat 4 n') := congrArg Bytes.toNat hcounter
    _ = n' := Bytes.toNat_ofNat_of_lt hn'

/-- What the seeds of a device are derived from. -/
@[ext] structure SeedOrigin where
  secret : Octets 32
  core : Bytes
  firmware : Bytes
  deriving DecidableEq

namespace SeedOrigin

variable (o : SeedOrigin)

/-- The digests of the secret and of the core image. -/
def cdiMessage : Bytes := (sha256 o.secret.toList).toList ++ (sha256 o.core).toList

def cdi : Cdi := ⟨sha256 o.cdiMessage⟩

/-- The device seed and the digest of the firmware. -/
def aliasMessage : Bytes := (deviceSeed o.cdi).toList ++ (sha256 o.firmware).toList

/-- All messages that are hashed on the way to the identifier. -/
def cdiMessages : List Bytes := [o.core, o.secret.toList, o.cdiMessage]

/-- All messages that are hashed on the way to the alias seed. -/
def messages : List Bytes := o.cdiMessages ++ [o.cdi.bytes.toList, o.firmware, o.aliasMessage]

theorem cdiOf_provisioned (h : minMeasuredSize ≤ o.core.length) :
    cdiOf o.core (.provisioned o.secret) = .ok o.cdi := by
  rw [cdiOf_eq, composedCdi, if_neg (Nat.not_lt.2 h)]
  exact if_neg (not_not_intro rfl)

variable {o} {o' : SeedOrigin}

theorem eq_of_cdi_eq (h : o.cdi = o'.cdi) (hcollide : ¬ Collide o.cdiMessages o'.cdiMessages) :
    o.secret = o'.secret ∧ o.core = o'.core := by
  have hmessage : o.cdiMessage = o'.cdiMessage :=
    eq_of_not_collide hcollide (by simp [cdiMessages]) (congrArg Cdi.bytes h)
  obtain ⟨hsecret, hcore⟩ := Octets.append_inj hmessage
  exact ⟨Octets.ext (eq_of_not_collide hcollide (by simp [cdiMessages]) hsecret),
    eq_of_not_collide hcollide (by simp [cdiMessages]) hcore⟩

theorem eq_of_aliasSeed_eq
    (h : aliasSeed o.cdi (sha256 o.firmware) = aliasSeed o'.cdi (sha256 o'.firmware))
    (hcollide : ¬ Collide o.messages o'.messages) : o = o' := by
  have hmessage : o.aliasMessage = o'.aliasMessage :=
    eq_of_not_collide hcollide (by simp [messages, cdiMessages]) h
  obtain ⟨hseed, hfirmware⟩ := Octets.append_inj hmessage
  have hfirmware : o.firmware = o'.firmware :=
    eq_of_not_collide hcollide (by simp [messages, cdiMessages]) hfirmware
  have hcdi : o.cdi.bytes.toList = o'.cdi.bytes.toList :=
    eq_of_not_collide hcollide (by simp [messages, cdiMessages]) hseed
  have hcdi : o.cdi = o'.cdi := congrArg Cdi.mk (Octets.ext hcdi)
  have hearlier : ¬ Collide o.cdiMessages o'.cdiMessages := fun hc => hcollide (hc.append rfl _ _)
  obtain ⟨hsecret, hcore⟩ := eq_of_cdi_eq hcdi hearlier
  exact SeedOrigin.ext hsecret hcore hfirmware

/-- Two devices with provisioned secrets and images that can be measured have an identifier each.
If the identifiers agree, so do the secrets and the core images; if the alias seeds agree, so do
the firmware images too; or two messages of theirs collide. An alias seed and a device seed agree
by a collision only. These are the seeds of the keys: from an identifier and a firmware image both
layers of keys are derived with them, and with nothing else. What goes into a key together with its
seed, the label and the counter of the attempt, is told apart as well. -/
theorem seeds_determine_origin (h : minMeasuredSize ≤ o.core.length)
    (h' : minMeasuredSize ≤ o'.core.length) :
    ∃ cdi cdi', cdiOf o.core (.provisioned o.secret) = .ok cdi ∧
      cdiOf o'.core (.provisioned o'.secret) = .ok cdi' ∧
      (cdi = cdi' →
        (o.secret = o'.secret ∧ o.core = o'.core) ∨ Collide o.cdiMessages o'.cdiMessages) ∧
      (aliasSeed cdi (sha256 o.firmware) = aliasSeed cdi' (sha256 o'.firmware) →
        o = o' ∨ Collide o.messages o'.messages) ∧
      (∀ cdi₀, aliasSeed cdi (sha256 o.firmware) = deviceSeed cdi₀ →
        IsCollision o.aliasMessage cdi₀.bytes.toList) ∧
      (∀ cdi₀ image keys, ofCdi cdi₀ image = .ok keys ↔
        KeyDerivation.privateKey (deviceSeed cdi₀).toList deviceLabel = .ok keys.device ∧
        KeyDerivation.privateKey (aliasSeed cdi₀ (sha256 image)).toList aliasLabel = .ok keys.aliasKey ∧
        keys.firmware = sha256 image) ∧
      (∀ seed label, ∃ c : ℕ → Octets 32,
        (∀ n, KeyDerivation.expand KeyDerivation.keySalt seed (KeyDerivation.candidateInfo label n) 32 =
          .ok (c n)) ∧ KeyDerivation.EndsAtFirst c (KeyDerivation.privateKey seed label)) ∧
      ∀ label label' n n', n < 2 ^ 32 → n' < 2 ^ 32 →
        KeyDerivation.candidateInfo label n = KeyDerivation.candidateInfo label' n' →
          label = label' ∧ n = n' := by
  refine ⟨o.cdi, o'.cdi, cdiOf_provisioned o h, cdiOf_provisioned o' h', ?_, ?_, ?_,
    fun _ _ _ => ofCdi_eq_ok_iff, exists_candidates, ?_⟩
  · intro hcdi
    exact or_iff_not_imp_right.2 (eq_of_cdi_eq hcdi)
  · intro hseed
    exact or_iff_not_imp_right.2 (eq_of_aliasSeed_eq hseed)
  · intro cdi₀ hseed
    exact isCollision_of_aliasSeed_eq_deviceSeed hseed
  · intro label label' n n' hn hn'
    exact candidateInfo_inj hn hn'

/-- A device whose core image ends with a certain byte, and one that has this byte at the start of
its firmware instead. -/
def longCore : SeedOrigin := ⟨.replicate 32 0, List.replicate 8 0xaa ++ [0xbb], []⟩
def shortCore : SeedOrigin := ⟨.replicate 32 0, List.replicate 8 0xaa, [0xbb]⟩

theorem not_collide_longCore_shortCore : ¬ Collide longCore.messages shortCore.messages := by
  decide +kernel

/-- The two devices have different alias seeds. -/
theorem longCore_shortCore_aliasSeed_ne :
    minMeasuredSize ≤ longCore.core.length ∧ minMeasuredSize ≤ shortCore.core.length ∧
      ∃ cdi cdi', cdiOf longCore.core (.provisioned longCore.secret) = .ok cdi ∧
        cdiOf shortCore.core (.provisioned shortCore.secret) = .ok cdi' ∧
        aliasSeed cdi (sha256 longCore.firmware) ≠ aliasSeed cdi' (sha256 shortCore.firmware) := by
  have hlong : minMeasuredSize ≤ longCore.core.length := by decide
  have hshort : minMeasuredSize ≤ shortCore.core.length := by decide
  obtain ⟨cdi, cdi', hcdi, hcdi', -, hseeds, -⟩ := seeds_determine_origin hlong hshort
  refine ⟨hlong, hshort, cdi, cdi', hcdi, hcdi', ?_⟩
  intro hseed
  rcases hseeds hseed with heq | hcollide
  · exact absurd heq (by decide)
  · exact not_collide_longCore_shortCore hcollide

end SeedOrigin

end MeasuredIdentity
