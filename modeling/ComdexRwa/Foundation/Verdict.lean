import Mathlib.Data.Option.Basic

/-! Verdicts that stand once they are reached, and a record of them that is brought up to date at some
moments and not at others. -/
namespace ComdexRwa.Foundation

section Verdicts
variable {σ ν : Type} {after : σ → σ → Prop} {verdict : σ → Option ν} {known : Option ν} {s t : σ}

/-- A verdict stays what it is in every later situation. -/
def Stands (after : σ → σ → Prop) (verdict : σ → Option ν) : Prop :=
  ∀ s t v, after s t → verdict s = some v → verdict t = some v

/-- What is recorded, if anything, is the verdict of the situation. -/
def Earned (verdict : σ → Option ν) (known : Option ν) (s : σ) : Prop := ∀ v, known = some v → verdict s = some v

/-- Looking again: what is recorded is not looked up a second time. -/
def record (verdict : σ → Option ν) (known : Option ν) (s : σ) : Option ν := known.or (verdict s)

theorem Earned.nothing (s : σ) : Earned verdict none s := fun _ h => nomatch h

/-- With an earned record, looking again tells what looking for the first time would. -/
theorem Earned.record_eq (h : Earned verdict known s) : record verdict known s = verdict s := by
  cases known with
  | none => rfl
  | some v => exact (h v rfl).symm

theorem Earned.recorded (h : Earned verdict known s) : Earned verdict (record verdict known s) s := by
  intro v hv
  rwa [h.record_eq] at hv

theorem Earned.record_ne {v : ν} (h : Earned verdict known s) (hv : verdict s ≠ some v) :
    record verdict known s ≠ some v := by rwa [h.record_eq]

theorem Earned.later (h : Earned verdict known s) (hstands : Stands after verdict) (hafter : after s t) :
    Earned verdict known t := fun v hv => hstands s t v hafter (h v hv)

end Verdicts
end ComdexRwa.Foundation
