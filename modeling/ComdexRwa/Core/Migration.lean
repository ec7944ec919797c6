import ComdexRwa.Core.Contract
import ComdexRwa.Foundation.Decimal
import ComdexRwa.Foundation.Outcome
import ComdexRwa.Foundation.Query
import Mathlib.Data.Prod.Lex

/-! Migrations: which stored versions are taken for newer than the contract's own. `migrate` compares
versions as text, where `cw2` has a helper that compares them component by component. -/
namespace ComdexRwa.Core
open Foundation Txn

/-- A version of three components, ordered by the first of them that differs. -/
@[ext] structure Release where
  major : U64
  minor : U64
  patch : U64
  deriving DecidableEq, Repr

namespace Release

/-- How the version is written, each component without leading zeros. -/
def text (v : Release) : String := v.major.decimal ++ "." ++ v.minor.decimal ++ "." ++ v.patch.decimal

def precedence (v : Release) : U64 ×ₗ U64 ×ₗ U64 := toLex (v.major, toLex (v.minor, v.patch))

private theorem precedence_injective : Function.Injective precedence := by
  intro v w h
  obtain ⟨hmajor, h⟩ := Prod.mk.inj (toLex.injective h)
  obtain ⟨hminor, hpatch⟩ := Prod.mk.inj (toLex.injective h)
  exact Release.ext hmajor hminor hpatch

instance : LinearOrder Release := LinearOrder.lift' precedence precedence_injective

private theorem lt_iff (v w : Release) : v < w ↔ v.major < w.major ∨ v.major = w.major ∧
    (v.minor < w.minor ∨ v.minor = w.minor ∧ v.patch < w.patch) := by
  change precedence v < precedence w ↔ _
  rw [precedence, precedence, Prod.Lex.toLex_lt_toLex, Prod.Lex.toLex_lt_toLex]

end Release

/-- What is called of the `semver` crate. -/
structure Semver where
  Version : Type
  new : U64 → U64 → U64 → Version
  parse : String → Except String Version
  lt : Version → Version → Bool

/-- What the crate says of versions with three components and nothing else: it reads them back from
their text, and orders them by precedence. -/
structure Semver.Documented (semver : Semver) : Prop where
  parse_text : ∀ v : Release, semver.parse v.text = .ok (semver.new v.major v.minor v.patch)
  lt_iff : ∀ v w : Release, semver.lt (semver.new v.major v.minor v.patch) (semver.new w.major w.minor w.patch) = true ↔
    v < w

/-! The helper of `cw2`, and what it calls. -/

namespace Cw2

def getContractVersion : Txn Storage StdError ContractVersion := contract.load

def setContractVersion (name version : String) : Txn Storage StdError Unit := contract.save ⟨name, version⟩

def fromSemver (err : String) : StdError := .genericErr ("Semver: " ++ err)

def parse (semver : Semver) (text : String) : Txn Storage StdError semver.Version :=
  match semver.parse text with
  | .ok version => pure version
  | .error err => throw (.error (fromSemver err))

/-- The version is rewritten only where it changes, and the one found is returned. -/
def ensureFromOlderVersion (semver : Semver) (name newVersion : String) : Txn Storage StdError semver.Version := do
  let version ← parse semver newVersion
  let stored ← getContractVersion
  let storageVersion ← parse semver stored.version
  ensure (name = stored.contract) (.genericErr ("Cannot migrate from " ++ stored.contract ++ " to " ++ name))
  ensure (¬ semver.lt version storageVersion = true)
    (.genericErr ("Cannot migrate from newer version (" ++ stored.version ++ ") to older (" ++ newVersion ++ ")"))
  if semver.lt storageVersion version = true then
    setContractVersion name newVersion
  pure storageVersion

@[simp] theorem contract_read (s : Storage) : contract.read s = s.contractInfo := rfl
@[simp] theorem contract_write (v : ContractVersion) (s : Storage) :
    contract.write v s = { s with contractInfo := some v } := rfl

section Helper
variable {semver : Semver} {s : Storage} {name : String} {v w : Release}

private theorem parse_returns (hd : semver.Documented) (s : Storage) :
    (parse semver v.text).Returns s (semver.new v.major v.minor v.patch) s := by
  rw [parse, hd.parse_text]
  exact (returns_pure _ _ s s).mpr ⟨rfl, rfl⟩

/-- The helper leaves the new version, unless the stored one is newer. -/
theorem ensureFromOlderVersion_returns (hd : semver.Documented) (hs : s.contractInfo = some ⟨name, v.text⟩)
    (version : semver.Version) (s' : Storage) :
    (ensureFromOlderVersion semver name w.text).Returns s version s' ↔
      ¬ w < v ∧ semver.new v.major v.minor v.patch = version ∧ s' = { s with contractInfo := some ⟨name, w.text⟩ } := by
  rw [ensureFromOlderVersion, returns_bind_of_run (parse_returns hd s)]
  simp only [getContractVersion, setContractVersion, Item.returns_load_bind, contract_read, hs, Option.some.injEq,
    exists_eq_left']
  rw [returns_bind_of_run (parse_returns hd s)]
  simp only [returns_ensure_bind, true_and, hd.lt_iff]
  apply and_congr_right
  intro hnot
  by_cases hlt : v < w
  · simp only [hlt, if_true, Item.returns_save_bind, contract_write, returns_pure]
    exact and_congr_right fun _ => eq_comm
  · -- Nothing is written over the same version, and writing it would change nothing.
    obtain rfl : v = w := le_antisymm (not_lt.mp hnot) (not_lt.mp hlt)
    simp only [hlt, if_false, returns_pure]
    rw [← hs]
    exact and_congr_right fun _ => eq_comm

/-- It is cut off only where the stored version is newer, and then writes nothing. -/
theorem ensureFromOlderVersion_aborts (hd : semver.Documented) (hs : s.contractInfo = some ⟨name, v.text⟩)
    (e : Abort StdError) (s' : Storage) :
    (ensureFromOlderVersion semver name w.text).Aborts s e s' ↔ w < v ∧
      .error (.genericErr ("Cannot migrate from newer version (" ++ v.text ++ ") to older (" ++ w.text ++ ")")) = e ∧
        s = s' := by
  rw [ensureFromOlderVersion, aborts_bind_of_run (parse_returns hd s)]
  simp only [getContractVersion, setContractVersion, Item.aborts_load_bind, contract_read, hs, Option.some.injEq,
    exists_eq_left', reduceCtorEq, false_and, false_or]
  rw [aborts_bind_of_run (parse_returns hd s)]
  simp only [aborts_ensure_bind, not_true_eq_false, false_and, true_and, false_or, hd.lt_iff, not_not]
  apply or_iff_left
  intro hx
  split at hx
  · simp only [Item.aborts_save_bind, aborts_pure, and_false] at hx
  · simp only [aborts_pure, and_false] at hx

end Helper
end Cw2

/-- The version that the contract has of itself. -/
def contractRelease : Release := ⟨1, 1, 2⟩

private theorem contractRelease_text : contractRelease.text = contractVersion := rfl

/-- A version 1.1.P whose last component has several digits, the first of them a one. -/
def misread (v : Release) : Prop := v.major = 1 ∧ v.minor = 1 ∧ ∃ k, v.patch.val / 10 ^ (k + 1) = 1

/-- A migration from the version `v` decides by precedence, and it does what the helper does: it
succeeds with the same store left, or is refused and leaves the store as it was. -/
structure MigratesRightly (semver : Semver) (s : Storage) (v : Release) : Prop where
  succeeds : (∃ r s', Core.migrate.Returns s r s') ↔ ¬ contractRelease < v
  migrated : ∀ s', (∃ r, Core.migrate.Returns s r s') ↔
    ∃ version, (Cw2.ensureFromOlderVersion semver contractName contractVersion).Returns s version s'
  refused : ∀ s', (∃ e, Core.migrate.Aborts s e s') ↔
    ∃ e, (Cw2.ensureFromOlderVersion semver contractName contractVersion).Aborts s e s'
  unchanged : ∀ e s', Core.migrate.Aborts s e s' → s' = s

section Comparison

private theorem Release.toList_text (v : Release) : v.text.toList = Nat.toDigits 10 v.major.val ++
    '.' :: (Nat.toDigits 10 v.minor.val ++ '.' :: (Nat.toDigits 10 v.patch.val ++ [])) := by
  simp [text, Word.decimal]

private theorem not_misplaced_one (n : Nat) : ¬ Decimal.Misplaced 1 n := by
  intro hx
  obtain ⟨k, _, hpos, hlt⟩ := hx
  omega

private theorem misplaced_two_iff (n : Nat) : Decimal.Misplaced 2 n ↔ ∃ k, n / 10 ^ (k + 1) = 1 := by
  constructor
  · intro hx
    obtain ⟨k, hk, hpos, hlt⟩ := hx
    obtain ⟨j, rfl⟩ := Nat.exists_eq_add_one_of_ne_zero (Nat.ne_of_gt hk)
    exact ⟨j, by omega⟩
  · intro hx
    obtain ⟨k, hk⟩ := hx
    exact ⟨k + 1, Nat.succ_pos k, by omega, by omega⟩

/-- As text, a version comes after the contract's own when it is newer, unless it is misread. -/
private theorem text_lt_iff (v : Release) : contractVersion < v.text ↔ contractRelease < v ∧ ¬ misread v := by
  have hdot (t : List Char) : ∀ c ∈ ('.' :: t).head?, c < '0' := by
    intro c hc
    cases hc
    decide
  have hend : ∀ c ∈ ([] : List Char).head?, c < '0' := fun c hc => (nomatch hc)
  have hown : contractVersion.toList = Nat.digitChar 1 :: '.' :: Nat.digitChar 1 :: '.' :: Nat.digitChar 2 :: [] := rfl
  have hone : (1 : U64).val = 1 := rfl
  have htwo : (2 : U64).val = 2 := rfl
  rw [String.lt_iff, hown, v.toList_text, Decimal.digit_lt_iff (by omega) (hdot _), List.cons_lt_cons_self,
    Decimal.digit_lt_iff (by omega) (hdot _), List.cons_lt_cons_self,
    Decimal.digit_lt_iff (by omega) hend, Release.lt_iff, misread, misplaced_two_iff]
  simp only [contractRelease, Word.lt_iff, Word.ext_iff, hone, htwo, not_misplaced_one, List.lt_irrefl]
  by_cases hlong : ∃ k, v.patch.val / 10 ^ (k + 1) = 1
  · simp only [hlong, not_true_eq_false, not_false_eq_true, and_true, and_false, or_false]
    omega
  · simp only [hlong, not_false_eq_true, and_true, and_false, or_false]

private theorem newer_of_misread {v : Release} (h : misread v) : contractRelease < v := by
  obtain ⟨hmajor, hminor, k, hk⟩ := h
  have hten : 10 ≤ 10 ^ (k + 1) := Nat.le_self_pow (Nat.succ_ne_zero k) 10
  have hle := Nat.div_mul_le_self v.patch.val (10 ^ (k + 1))
  rw [hk, Nat.one_mul] at hle
  have htwo : (2 : U64).val = 2 := rfl
  refine (Release.lt_iff _ _).mpr (.inr ⟨hmajor.symm, .inr ⟨hminor.symm, ?_⟩⟩)
  rw [Word.lt_iff]
  change (2 : U64).val < v.patch.val
  omega

end Comparison

section Laws
variable {semver : Semver} {s : Storage} {v : Release} {version : String}

/-- Past the check of the name, the text of the version alone decides. -/
private theorem migrate_returns_of (hs : s.contractInfo = some ⟨contractName, version⟩) (r : Reply) (s' : Storage) :
    Core.migrate.Returns s r s' ↔ r = Response.new ∧ ¬ contractVersion < version ∧
      s' = { s with contractInfo := some ⟨contractName, contractVersion⟩ } := by
  simp only [migrate_returns, hs, Option.some.injEq, exists_eq_left', true_and]

private theorem migrate_aborts_of (hs : s.contractInfo = some ⟨contractName, version⟩) (e : Abort ContractError)
    (s' : Storage) : Core.migrate.Aborts s e s' ↔ contractVersion < version ∧
      .error (.generic "Cannot upgrade from a newer version") = e ∧ s = s' := by
  simp only [Core.migrate, Core.getContractVersion, Core.setContractVersion, Item.aborts_load_bind,
    aborts_ensure_bind, Item.aborts_save_bind, aborts_pure, contractItem_read, hs, Option.some.injEq,
    exists_eq_left', reduceCtorEq, not_true_eq_false, false_and, true_and, false_or, not_not, and_false, or_false]

/-- A migration does what it should exactly when the stored version is not misread. -/
theorem migration_iff (hd : semver.Documented) (hs : s.contractInfo = some ⟨contractName, v.text⟩) :
    MigratesRightly semver s v ↔ ¬ misread v := by
  constructor
  · intro hm hmis
    have hnot : ¬ contractVersion < v.text := fun hlt => ((text_lt_iff v).mp hlt).2 hmis
    exact hm.succeeds.mp ⟨_, _, (migrate_returns_of hs _ _).mpr ⟨rfl, hnot, rfl⟩⟩ (newer_of_misread hmis)
  · intro hmis
    have htext : contractVersion < v.text ↔ contractRelease < v := (text_lt_iff v).trans (and_iff_left hmis)
    have hreturns (version : semver.Version) (s' : Storage) :=
      Cw2.ensureFromOlderVersion_returns (w := contractRelease) hd hs version s'
    have haborts (e : Abort StdError) (s' : Storage) :=
      Cw2.ensureFromOlderVersion_aborts (w := contractRelease) hd hs e s'
    rw [contractRelease_text] at hreturns haborts
    refine ⟨?_, fun s' => ?_, fun s' => ?_, fun e s' hx => ?_⟩
    · simp only [migrate_returns_of hs, htext, exists_and_left, exists_eq_left, exists_eq, and_true]
    · simp only [migrate_returns_of hs, hreturns, htext, exists_eq_left, exists_and_left, exists_and_right,
        exists_eq', true_and]
    · simp only [migrate_aborts_of hs, haborts, htext, exists_and_left, exists_and_right, exists_eq', true_and]
    · exact ((migrate_aborts_of hs e s').mp hx).2.2.symm

end Laws

/-! A reader of versions with three components, to run the helper with. -/

namespace Semver

/-- A component is read only from the text that it is written as. -/
def readComponent (digits : List Char) : Option U64 :=
  let n := Nat.ofDigitChars 10 digits 0
  if h : n < 2 ^ 64 ∧ Nat.toDigits 10 n = digits then some ⟨n, h.1⟩ else none

def readRelease (text : String) : Option Release := do
  let [major, minor, patch] := text.toList.splitOn '.' | none
  pure ⟨← readComponent major, ← readComponent minor, ← readComponent patch⟩

def plain : Semver where
  Version := Release
  new := Release.mk
  parse text := (readRelease text).elim (.error "not a version of three components") .ok
  lt v w := decide (v < w)

private theorem readComponent_toDigits (a : U64) : readComponent (Nat.toDigits 10 a.val) = some a := by
  have hval : Nat.ofDigitChars 10 (Nat.toDigits 10 a.val) 0 = a.val := Nat.ofDigitChars_ten_toDigits
  simp only [readComponent, hval, a.isLt, and_self, dite_true]

private theorem dot_notMem_toDigits (n : Nat) : '.' ∉ Nat.toDigits 10 n := by
  intro hdot
  have hdigit := Nat.isDigit_of_mem_toDigits (by omega) (le_refl 10) hdot
  exact absurd hdigit (by decide)

private theorem readRelease_text (v : Release) : readRelease v.text = some v := by
  have hsplit : v.text.toList.splitOn '.' =
      [Nat.toDigits 10 v.major.val, Nat.toDigits 10 v.minor.val, Nat.toDigits 10 v.patch.val] := by
    have hjoin : v.text.toList = ['.'].intercalate
        [Nat.toDigits 10 v.major.val, Nat.toDigits 10 v.minor.val, Nat.toDigits 10 v.patch.val] := by
      rw [v.toList_text]
      simp [List.intercalate]
    rw [hjoin]
    apply List.splitOn_intercalate
    · intro digits hmem
      simp only [List.mem_cons, List.not_mem_nil, or_false] at hmem
      rcases hmem with rfl | rfl | rfl <;> exact dot_notMem_toDigits _
    · exact List.cons_ne_nil _ _
  rw [readRelease, hsplit]
  simp only [readComponent_toDigits]
  rfl

theorem plain_documented : plain.Documented where
  parse_text v := by
    simp only [plain, readRelease_text, Option.elim_some]
  lt_iff v w := by
    simp only [plain, decide_eq_true_eq]

end Semver

/-- A storage as `start`, but of the version `v`. -/
def Sample.ofVersion (v : Release) : Storage := { Storage.start with contractInfo := some ⟨contractName, v.text⟩ }

/-- Version 1.0.10 is older than 1.1.2, and as text it comes before it. -/
theorem migration_iff_of_older : MigratesRightly Semver.plain (Sample.ofVersion ⟨1, 0, 10⟩) ⟨1, 0, 10⟩ ↔
    ¬ misread ⟨1, 0, 10⟩ :=
  migration_iff Semver.plain_documented rfl

/-- Version 1.1.10 is newer than 1.1.2, and the helper refuses it, but it is taken for older and overwritten. -/
theorem newer_version_overwritten : contractRelease < ⟨1, 1, 10⟩ ∧
    Core.migrate.Returns (Sample.ofVersion ⟨1, 1, 10⟩) Response.new Storage.start ∧
    (Cw2.ensureFromOlderVersion Semver.plain contractName contractVersion).Aborts (Sample.ofVersion ⟨1, 1, 10⟩)
      (.error (.genericErr "Cannot migrate from newer version (1.1.10) to older (1.1.2)"))
      (Sample.ofVersion ⟨1, 1, 10⟩) ∧
    ¬ MigratesRightly Semver.plain (Sample.ofVersion ⟨1, 1, 10⟩) ⟨1, 1, 10⟩ := by
  have hnewer : contractRelease < ⟨1, 1, 10⟩ := by decide
  have hreturns : Core.migrate.Returns (Sample.ofVersion ⟨1, 1, 10⟩) Response.new Storage.start :=
    (migrate_returns_of rfl _ _).mpr ⟨rfl, by decide, rfl⟩
  refine ⟨hnewer, hreturns, ?_, fun h => h.succeeds.mp ⟨_, _, hreturns⟩ hnewer⟩
  exact (Cw2.ensureFromOlderVersion_aborts (w := contractRelease) Semver.plain_documented rfl _ _).mpr
    ⟨hnewer, rfl, rfl⟩

end ComdexRwa.Core
