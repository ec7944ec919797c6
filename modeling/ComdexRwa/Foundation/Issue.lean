import Mathlib.Data.List.Nodup

/-! Issuing tokens and handing them over, as the list of all moves made.
A list of moves is orderly when every token is minted once, and handed over once at most and only then. -/
namespace ComdexRwa.Foundation

inductive TokenMove (τ : Type) where
  | mint (token : τ)
  | transfer (token : τ)
  deriving DecidableEq, Repr

namespace TokenMove
variable {τ : Type}

def mint? : TokenMove τ → Option τ
  | .mint token => some token
  | .transfer _ => none

def transfer? : TokenMove τ → Option τ
  | .mint _ => none
  | .transfer token => some token

end TokenMove

variable {τ : Type}

def minted (moves : List (TokenMove τ)) : List τ := moves.filterMap TokenMove.mint?

def transferred (moves : List (TokenMove τ)) : List τ := moves.filterMap TokenMove.transfer?

@[simp] theorem minted_append (l l' : List (TokenMove τ)) : minted (l ++ l') = minted l ++ minted l' :=
  List.filterMap_append

@[simp] theorem transferred_append (l l' : List (TokenMove τ)) :
    transferred (l ++ l') = transferred l ++ transferred l' :=
  List.filterMap_append

@[simp] theorem minted_mint (token : τ) : minted [TokenMove.mint token] = [token] := rfl
@[simp] theorem minted_transfer (token : τ) : minted [TokenMove.transfer token] = [] := rfl
@[simp] theorem transferred_mint (token : τ) : transferred [TokenMove.mint token] = [] := rfl
@[simp] theorem transferred_transfer (token : τ) : transferred [TokenMove.transfer token] = [token] := rfl

structure Orderly (moves : List (TokenMove τ)) : Prop where
  mintedOnce : (minted moves).Nodup
  transferredOnce : (transferred moves).Nodup
  backed : ∀ l token l', moves = l ++ .transfer token :: l' → token ∈ minted l

namespace Orderly
variable {moves : List (TokenMove τ)} {token : τ}

theorem nil : Orderly ([] : List (TokenMove τ)) := by
  refine ⟨.nil, .nil, fun l token l' h => ?_⟩
  cases l <;> cases h

private theorem nodup_push {l : List τ} (h : l.Nodup) (hn : token ∉ l) : (l ++ [token]).Nodup := by
  rw [← List.concat_eq_append]
  exact List.Nodup.concat hn h

/-- A transfer in an extended list is an old one, or the new last move. -/
private theorem split_push {move : TokenMove τ} {l l' : List (TokenMove τ)} {t : τ}
    (h : moves ++ [move] = l ++ .transfer t :: l') :
    (∃ l'', moves = l ++ .transfer t :: l'') ∨ (moves = l ∧ move = .transfer t) := by
  rcases List.eq_nil_or_concat l' with rfl | ⟨l'', x, rfl⟩
  · obtain ⟨hl, hm⟩ := List.append_inj' h rfl
    cases hm
    exact .inr ⟨hl, rfl⟩
  · rw [List.concat_eq_append, ← List.cons_append, ← List.append_assoc] at h
    exact .inl ⟨l'', (List.append_inj' h rfl).1⟩

theorem mint (h : Orderly moves) (hn : token ∉ minted moves) : Orderly (moves ++ [.mint token]) := by
  refine ⟨?_, ?_, fun l t l' hs => ?_⟩
  · rw [minted_append, minted_mint]
    exact nodup_push h.mintedOnce hn
  · rw [transferred_append, transferred_mint, List.append_nil]
    exact h.transferredOnce
  · rcases split_push hs with ⟨l'', hl⟩ | ⟨_, hm⟩
    · exact h.backed l t l'' hl
    · cases hm

theorem transfer (h : Orderly moves) (hm : token ∈ minted moves) (hn : token ∉ transferred moves) :
    Orderly (moves ++ [.transfer token]) := by
  refine ⟨?_, ?_, fun l t l' hs => ?_⟩
  · rw [minted_append, minted_transfer, List.append_nil]
    exact h.mintedOnce
  · rw [transferred_append, transferred_transfer]
    exact nodup_push h.transferredOnce hn
  · rcases split_push hs with ⟨l'', hl⟩ | ⟨rfl, ht⟩
    · exact h.backed l t l'' hl
    · cases ht
      exact hm

end Orderly
end ComdexRwa.Foundation
