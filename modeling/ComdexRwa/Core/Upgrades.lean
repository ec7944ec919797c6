import ComdexRwa.Core.Migration
import ComdexRwa.Foundation.Run

/-! Upgrades over time with the helper of `cw2`: releases are tried in any order, and the version stored is
the highest of them. -/
namespace ComdexRwa.Core
open Foundation Txn

namespace Cw2

inductive VersionError where
  | std (e : StdError)
  | notFound
  | wrongContract (expected found : String)
  | wrongVersion (expected found : String)
  deriving DecidableEq, Repr

def assertContractVersion (expectedContract expectedVersion : String) : Txn Storage VersionError Unit := do
  let stored ← contract.mayLoad.mapErr .std
  match stored with
  | some stored =>
    ensure (stored.contract = expectedContract) (.wrongContract expectedContract stored.contract)
    ensure (stored.version = expectedVersion) (.wrongVersion expectedVersion stored.version)
  | none => throw (.error .notFound)

inductive ReleaseCall where
  | install (release : Release)
  | upgrade (release : Release)
  deriving DecidableEq, Repr

namespace ReleaseCall

def release : ReleaseCall → Release
  | .install release | .upgrade release => release

def installs : ReleaseCall → Bool
  | .install _ => true
  | .upgrade _ => false

end ReleaseCall

/-- A contract that records its version in a storage when it is instantiated, and is then migrated to one release
after another. A migration answers with the version that it found. -/
def upgrades (semver : Semver) (name : String) (s : Storage) :
    System Storage ReleaseCall StdError (Option semver.Version) where
  initial := s
  opens c := c.installs = true
  continues c := c.installs = false
  exec
    | .install release => do
      setContractVersion name release.text
      pure none
    | .upgrade release => do
      let found ← ensureFromOlderVersion semver name release.text
      pure (some found)

/-- The storage with a version recorded. -/
def atRelease (s : Storage) (name : String) (v : Release) : Storage :=
  { s with contractInfo := some ⟨name, v.text⟩ }

/-- Every release that was installed or tried. -/
def releases {ε ω : Type} (h : List (Event Storage ReleaseCall ε ω)) : List Release :=
  (h.map Event.call).map ReleaseCall.release

section Upgrades
variable {semver : Semver} {s t : Storage} {name : String} {v w : Release}

/-- One attempt: it answers with the version found, or is refused because that one is newer. -/
private theorem upgrade (hd : semver.Documented) (s : Storage) (name : String) (v w : Release) :
    ((upgrades semver name s).transact (atRelease s name v) (.upgrade w)).after = atRelease s name (max v w) ∧
      (((upgrades semver name s).transact (atRelease s name v) (.upgrade w)).reply =
        if w < v then .error (.error (.genericErr
          ("Cannot migrate from newer version (" ++ v.text ++ ") to older (" ++ w.text ++ ")")))
        else .ok (some (semver.new v.major v.minor v.patch))) := by
  by_cases hlt : w < v
  · have haborts := (ensureFromOlderVersion_aborts hd (s := atRelease s name v) rfl _ _).mpr ⟨hlt, rfl, rfl⟩
    have hrefused : ((upgrades semver name s).exec (.upgrade w)).Aborts (atRelease s name v) _ (atRelease s name v) :=
      (aborts_bind_of_aborts haborts _ _ _).mpr ⟨rfl, rfl⟩
    rw [System.transact_of_error hrefused, if_pos hlt, max_eq_left hlt.le]
    exact ⟨rfl, rfl⟩
  · have hreturns := (ensureFromOlderVersion_returns hd (s := atRelease s name v) rfl _ _).mpr ⟨hlt, rfl, rfl⟩
    have hdone : ((upgrades semver name s).exec (.upgrade w)).Returns (atRelease s name v) _ (atRelease s name w) :=
      (returns_bind_of_run hreturns _ _ _).mpr ((returns_pure _ _ _ _).mpr ⟨rfl, rfl⟩)
    rw [System.transact_of_returns hdone, if_neg hlt, max_eq_right (not_lt.mp hlt)]
    exact ⟨rfl, rfl⟩

/-- The version stored is the highest there was, whether it has just been tried or not. -/
private theorem highest_stored (hd : semver.Documented)
    {h : List (Event Storage ReleaseCall StdError (Option semver.Version))}
    (hr : Run (upgrades semver name s) h t) :
    ∃ top, (top ∈ releases h ∧ ∀ u ∈ releases h, u ≤ top) ∧ t = atRelease s name top := by
  induction hr with
  | @opened c r t hopens hret =>
    cases c with
    | upgrade w => cases hopens
    | install v =>
      cases hret
      exact ⟨v, ⟨List.mem_singleton_self v, fun u hu => (List.mem_singleton.mp hu).le⟩, rfl⟩
  | @step h t c hr hc ih =>
    cases c with
    | install v => cases hc
    | upgrade w =>
      obtain ⟨top, ⟨hmem, htop⟩, rfl⟩ := ih
      have hreleases : releases (h ++ [(upgrades semver name s).transact (atRelease s name top) (.upgrade w)]) =
          releases h ++ [w] := by
        rw [releases, List.map_append, List.map_singleton, System.transact_call, List.map_append]
        rfl
      refine ⟨max top w, ?_, (upgrade hd s name top w).1⟩
      rw [hreleases]
      constructor
      · rcases max_choice top w with hmax | hmax
        · rw [hmax]
          exact List.mem_append_left _ hmem
        · rw [hmax]
          exact List.mem_append_right _ (List.mem_singleton_self w)
      · intro u hu
        rcases List.mem_append.mp hu with hu | hu
        · exact (htop u hu).trans (le_max_left top w)
        · rw [List.mem_singleton.mp hu]
          exact le_max_right top w

private theorem assertContractVersion_returns (s : Storage) (name : String) (v : Release) :
    (assertContractVersion name v.text).Returns (atRelease s name v) () (atRelease s name v) := by
  have hload : contract.mayLoad.Returns (atRelease s name v) (some ⟨name, v.text⟩) (atRelease s name v) := rfl
  rw [assertContractVersion, returns_bind_of_run (hload.mapErr VersionError.std)]
  simp [ensure]

private theorem assertContractVersion_aborts (s : Storage) (name : String) (v : Release) {text : String}
    (h : text ≠ v.text) :
    (assertContractVersion name text).Aborts (atRelease s name v) (.error (.wrongVersion text v.text))
      (atRelease s name v) := by
  have hload : contract.mayLoad.Returns (atRelease s name v) (some ⟨name, v.text⟩) (atRelease s name v) := rfl
  rw [assertContractVersion, aborts_bind_of_run (hload.mapErr VersionError.std)]
  simp [ensure, h.symm]

/-- Whatever releases are tried, in whatever order, the version stored in the end is the highest of them and of the
one installed, and this is the one that is asserted; an attempt succeeds exactly when no higher one was there
before, and nothing else in the storage changes. -/
theorem upgrades_keep_highest (hd : semver.Documented)
    {h : List (Event Storage ReleaseCall StdError (Option semver.Version))} (hr : Run (upgrades semver name s) h t) :
    ∃ top, (top ∈ releases h ∧ ∀ u ∈ releases h, u ≤ top) ∧ t = atRelease s name top ∧
      (assertContractVersion name top.text).Returns t () t ∧
      (∀ text, text ≠ top.text → (assertContractVersion name text).Aborts t (.error (.wrongVersion text top.text)) t) ∧
      ∀ w, ((∃ r, ((upgrades semver name s).transact t (.upgrade w)).reply = .ok r) ↔ ∀ u ∈ releases h, u ≤ w) := by
  obtain ⟨top, ⟨hmem, htop⟩, rfl⟩ := highest_stored hd hr
  refine ⟨top, ⟨hmem, htop⟩, rfl, assertContractVersion_returns s name _, fun _ => assertContractVersion_aborts s name _,
    fun w => ?_⟩
  rw [(upgrade hd s name top w).2]
  by_cases hlt : w < top
  · rw [if_pos hlt]
    refine iff_of_false (fun ⟨_, h⟩ => nomatch h) fun hall => ?_
    exact not_lt.mpr (hall _ hmem) hlt
  · rw [if_neg hlt]
    exact iff_of_true ⟨_, rfl⟩ fun u hu => (htop u hu).trans (not_lt.mp hlt)

/-- Two upgrades and an attempt to go back. -/
def Sample.upgrades : List ReleaseCall := [.upgrade ⟨1, 2, 0⟩, .upgrade ⟨1, 10, 0⟩, .upgrade ⟨1, 9, 9⟩]

def Sample.upgraded : Storage :=
  ((Cw2.upgrades Semver.plain "demo" .start).replay (atRelease .start "demo" ⟨1, 0, 0⟩) Sample.upgrades).2

theorem upgrades_keep_highest_of_three : ∃ top,
    (top ∈ [⟨1, 0, 0⟩, ⟨1, 2, 0⟩, ⟨1, 10, 0⟩, (⟨1, 9, 9⟩ : Release)] ∧
      ∀ u ∈ [⟨1, 0, 0⟩, ⟨1, 2, 0⟩, ⟨1, 10, 0⟩, (⟨1, 9, 9⟩ : Release)], u ≤ top) ∧
    Sample.upgraded = atRelease .start "demo" top ∧
    (assertContractVersion "demo" top.text).Returns Sample.upgraded () Sample.upgraded ∧
    (∀ text, text ≠ top.text → (assertContractVersion "demo" text).Aborts Sample.upgraded
      (.error (.wrongVersion text top.text)) Sample.upgraded) ∧
    ∀ w, (∃ r, ((upgrades Semver.plain "demo" .start).transact Sample.upgraded (.upgrade w)).reply = .ok r) ↔
      ∀ u ∈ [⟨1, 0, 0⟩, ⟨1, 2, 0⟩, ⟨1, 10, 0⟩, (⟨1, 9, 9⟩ : Release)], u ≤ w := by
  have hinstalled : Run (upgrades Semver.plain "demo" .start) [⟨.start, .install ⟨1, 0, 0⟩, .ok none, _⟩]
      (atRelease .start "demo" ⟨1, 0, 0⟩) :=
    .opened (show ReleaseCall.installs (.install ⟨1, 0, 0⟩) = true from rfl) rfl
  have hlater : ∀ c ∈ Sample.upgrades, c.installs = false := by decide
  have hkept := upgrades_keep_highest Semver.plain_documented (hinstalled.replay hlater)
  have hcalls := System.calls_replay (upgrades Semver.plain "demo" .start) (atRelease .start "demo" ⟨1, 0, 0⟩)
    Sample.upgrades
  rw [releases, List.map_append, hcalls] at hkept
  exact hkept

end Upgrades
end Cw2
end ComdexRwa.Core
