import ComdexRwa.Cw3.Proposal
import ComdexRwa.Foundation.Verdict

/-! How a vote can go on: what counts as passed or rejected stays so, and it does not matter when the status
of a proposal is brought up to date. -/
namespace ComdexRwa.Cw3
open Foundation
open ComdexRwa.Core (U64 Uint128)

namespace Votes

/-- Votes are only ever added. -/
structure Grows (votes grown : Votes) : Prop where
  yes : votes.yes.val ≤ grown.yes.val
  no : votes.no.val ≤ grown.no.val
  abstain : votes.abstain.val ≤ grown.abstain.val
  veto : votes.veto.val ≤ grown.veto.val

theorem Grows.refl (votes : Votes) : Grows votes votes := ⟨le_rfl, le_rfl, le_rfl, le_rfl⟩

private theorem Grows.trans {u v w : Votes} (huv : Grows u v) (hvw : Grows v w) : Grows u w :=
  ⟨huv.yes.trans hvw.yes, huv.no.trans hvw.no, huv.abstain.trans hvw.abstain, huv.veto.trans hvw.veto⟩

private theorem Grows.cast {votes grown : Votes} (h : Grows votes grown) : votes.cast ≤ grown.cast :=
  Nat.add_le_add (Nat.add_le_add (Nat.add_le_add h.yes h.no) h.abstain) h.veto

theorem addVote_grows {votes grown : Votes} {vote : Vote} {weight : U64}
    (h : votes.addVote vote weight = some grown) : Grows votes grown ∧ grown.cast = votes.cast + weight.val := by
  cases vote <;>
  · obtain ⟨sum, hsum, h⟩ := Option.bind_eq_some_iff.mp h
    cases h
    have hval := (Word.checkedAdd_eq_some _ _ _).mp hsum
    constructor
    · constructor <;> simp only [hval] <;> omega
    · simp only [cast, hval]
      omega

/-- A vote that stays within the range of a word is counted. -/
theorem addVote_some {votes : Votes} (vote : Vote) {weight : U64} (h : votes.cast + weight.val < 2 ^ 64) :
    ∃ grown, votes.addVote vote weight = some grown := by
  have hadd : ∀ w : U64, w.val ≤ votes.cast → ∃ sum, w.checkedAdd weight = some sum := by
    intro w hw
    exact ⟨⟨w.val + weight.val, by omega⟩, (Word.checkedAdd_eq_some _ _ _).mpr rfl⟩
  unfold cast at hadd
  cases vote with
  | yes =>
    obtain ⟨sum, hsum⟩ := hadd votes.yes (by omega)
    exact ⟨_, Option.bind_eq_some_iff.mpr ⟨sum, hsum, rfl⟩⟩
  | no =>
    obtain ⟨sum, hsum⟩ := hadd votes.no (by omega)
    exact ⟨_, Option.bind_eq_some_iff.mpr ⟨sum, hsum, rfl⟩⟩
  | abstain =>
    obtain ⟨sum, hsum⟩ := hadd votes.abstain (by omega)
    exact ⟨_, Option.bind_eq_some_iff.mpr ⟨sum, hsum, rfl⟩⟩
  | veto =>
    obtain ⟨sum, hsum⟩ := hadd votes.veto (by omega)
    exact ⟨_, Option.bind_eq_some_iff.mpr ⟨sum, hsum, rfl⟩⟩

/-- Ballots counted one after the other. -/
def count (votes : Votes) (ballots : List (Vote × U64)) : Option Votes :=
  ballots.foldlM (fun votes ballot => votes.addVote ballot.1 ballot.2) votes

theorem count_cons (votes : Votes) (ballot : Vote × U64) (ballots : List (Vote × U64)) :
    votes.count (ballot :: ballots) = (votes.addVote ballot.1 ballot.2).bind fun next => next.count ballots :=
  List.foldlM_cons ..

theorem count_append (votes : Votes) (ballots rest : List (Vote × U64)) :
    votes.count (ballots ++ rest) = (votes.count ballots).bind fun next => next.count rest :=
  List.foldlM_append ..

private theorem count_grows {votes grown : Votes} {ballots : List (Vote × U64)}
    (h : votes.count ballots = some grown) :
    Grows votes grown := by
  induction ballots generalizing votes with
  | nil =>
    cases h
    exact .refl _
  | cons ballot ballots ih =>
    rw [count_cons] at h
    obtain ⟨next, hnext, hrest⟩ := Option.bind_eq_some_iff.mp h
    exact (addVote_grows hnext).1.trans (ih hrest)

end Votes

section Voting
variable {δ ξ β : Type} {decimals : Decimals δ} {isExpired : ξ → β → Bool} {atomics : δ → Nat}
  {proposal : Proposal δ ξ} {grown : Votes} {expired expired' : Bool}

namespace Proposal

/-- The proposal with other votes counted. -/
def withVotes (proposal : Proposal δ ξ) (votes : Votes) : Proposal δ ξ := { proposal with votes }

@[simp] theorem withVotes_threshold : (proposal.withVotes grown).threshold = proposal.threshold := rfl
@[simp] private theorem withVotes_votes : (proposal.withVotes grown).votes = grown := rfl
@[simp] private theorem withVotes_expires : (proposal.withVotes grown).expires = proposal.expires := rfl

theorem Sound.withVotes (hsound : proposal.Sound atomics) (h : grown.cast ≤ proposal.totalWeight.val) :
    (proposal.withVotes grown).Sound atomics := ⟨h, hsound.2⟩

/-- Opinions only get fewer: a vote is an abstention, or was counted before it was given. -/
private theorem opinions_withVotes (hgrows : proposal.votes.Grows grown) (h : grown.cast ≤ proposal.totalWeight.val)
    (expired : Bool) : (proposal.withVotes grown).opinions expired ≤ proposal.opinions false := by
  have habstain := hgrows.abstain
  cases expired with
  | false => exact Nat.sub_le_sub_left habstain _
  | true => exact (Nat.sub_le_sub_right h _).trans (Nat.sub_le_sub_left habstain _)

/-- What passes before the vote is over passes with any further votes, then and at the end. -/
theorem Passes.withVotes (h : proposal.Passes atomics false) (hgrows : proposal.votes.Grows grown)
    (hcast : grown.cast ≤ proposal.totalWeight.val) (expired : Bool) :
    (proposal.withVotes grown).Passes atomics expired := by
  have hyes := hgrows.yes
  cases hthreshold : proposal.threshold with
  | absoluteCount weight =>
    simp only [Passes, withVotes_threshold, hthreshold] at h ⊢
    exact h.trans hyes
  | absolutePercentage percentage =>
    simp only [Passes, withVotes_threshold, hthreshold] at h ⊢
    exact (needed_mono _ (opinions_withVotes hgrows hcast false)).trans (h.trans hyes)
  | thresholdQuorum threshold quorum =>
    simp only [Passes, withVotes_threshold, hthreshold] at h ⊢
    exact ⟨h.1.trans hgrows.cast, (needed_mono _ (opinions_withVotes hgrows hcast expired)).trans (h.2.trans hyes)⟩

theorem Fails.withVotes (h : proposal.Fails atomics false) (hgrows : proposal.votes.Grows grown)
    (hcast : grown.cast ≤ proposal.totalWeight.val) (expired : Bool) :
    (proposal.withVotes grown).Fails atomics expired := by
  have hno := hgrows.no
  cases hthreshold : proposal.threshold with
  | absoluteCount weight =>
    simp only [Fails, withVotes_threshold, hthreshold] at h ⊢
    exact h.trans_le hno
  | absolutePercentage percentage =>
    simp only [Fails, withVotes_threshold, hthreshold] at h ⊢
    exact (needed_mono _ (opinions_withVotes hgrows hcast false)).trans_lt (h.trans_le hno)
  | thresholdQuorum threshold quorum =>
    simp only [Fails, withVotes_threshold, hthreshold] at h ⊢
    exact (needed_mono _ (opinions_withVotes hgrows hcast expired)).trans_lt (h.trans_le hno)

/-- Votes for and votes against are opinions. -/
private theorem yes_add_no_le (hcast : proposal.votes.cast ≤ proposal.totalWeight.val) (expired : Bool) :
    proposal.votes.yes.val + proposal.votes.no.val ≤ proposal.opinions expired := by
  unfold opinions
  unfold Votes.cast at hcast ⊢
  cases expired with
  | false => exact Nat.le_sub_of_add_le (by rw [if_neg Bool.false_ne_true]; omega)
  | true => exact Nat.le_sub_of_add_le (by rw [if_pos rfl]; omega)

/-- Both would take more votes than there are opinions, however the shares are rounded. -/
theorem Fails.not_passes (h : proposal.Fails atomics expired) (hsound : proposal.Sound atomics) :
    ¬ proposal.Passes atomics expired := by
  obtain ⟨hcast, hvalid⟩ := hsound
  intro hpasses
  have hopinions := yes_add_no_le hcast
  cases hthreshold : proposal.threshold with
  | absoluteCount weight =>
    simp only [Fails, Passes, hthreshold] at h hpasses
    have hwithin := hopinions false
    unfold opinions at hwithin
    rw [if_neg Bool.false_ne_true] at hwithin
    omega
  | absolutePercentage percentage =>
    simp only [Fails, Passes, hthreshold] at h hpasses
    rw [hthreshold] at hvalid
    have hneeded := le_needed_add hvalid (proposal.opinions false)
    have hwithin := hopinions false
    omega
  | thresholdQuorum threshold quorum =>
    simp only [Fails, Passes, hthreshold] at h hpasses
    rw [hthreshold] at hvalid
    have hneeded := le_needed_add hvalid.1 (proposal.opinions expired)
    have hwithin := hopinions expired
    omega

/-! What the functions say of the further course of the vote. -/

theorem isPassed_true_iff (hdoc : decimals.Documented atomics) (hsound : proposal.Sound atomics) (block : β) :
    proposal.isPassed decimals isExpired block = some true ↔
      proposal.Passes atomics (isExpired proposal.expires block) := by
  obtain ⟨passed, hpassed, hiff⟩ := isPassed_eq isExpired hdoc hsound block
  rw [hpassed, Option.some_inj, hiff]

theorem isPassed_false_iff (hdoc : decimals.Documented atomics) (hsound : proposal.Sound atomics) (block : β) :
    proposal.isPassed decimals isExpired block = some false ↔
      ¬ proposal.Passes atomics (isExpired proposal.expires block) := by
  obtain ⟨passed, hpassed, hiff⟩ := isPassed_eq isExpired hdoc hsound block
  rw [hpassed, Option.some_inj, ← hiff, Bool.not_eq_true]

private theorem isRejected_true_iff (hdoc : decimals.Documented atomics) (hsound : proposal.Sound atomics)
    (block : β) :
    proposal.isRejected decimals isExpired block = some true ↔
      proposal.Fails atomics (isExpired proposal.expires block) := by
  obtain ⟨rejected, hrejected, hiff⟩ := isRejected_eq isExpired hdoc hsound block
  rw [hrejected, Option.some_inj, hiff]

/-- All who have not voted yet can still vote no. -/
private theorem remaining_no (hcast : proposal.votes.cast ≤ proposal.totalWeight.val) :
    ∃ ballots grown, proposal.votes.count ballots = some grown ∧ grown.cast = proposal.totalWeight.val ∧
      grown.yes = proposal.votes.yes ∧ grown.abstain = proposal.votes.abstain := by
  have hlt := proposal.totalWeight.isLt
  obtain ⟨rest, hrest⟩ : ∃ rest : U64, rest.val = proposal.totalWeight.val - proposal.votes.cast :=
    ⟨⟨proposal.totalWeight.val - proposal.votes.cast, by omega⟩, rfl⟩
  obtain ⟨grown, hgrown⟩ := Votes.addVote_some .no (show proposal.votes.cast + rest.val < 2 ^ 64 by omega)
  refine ⟨[(.no, rest)], grown, ?_, ?_, ?_⟩
  · rw [Votes.count_cons, hgrown]
    rfl
  · rw [(Votes.addVote_grows hgrown).2]
    omega
  · obtain ⟨no, -, hno⟩ := Option.bind_eq_some_iff.mp hgrown
    cases hno
    exact ⟨rfl, rfl⟩

/-- While the vote lasts, `isPassed` says exactly that the proposal will have passed when it is over, whatever
is voted in the meantime. -/
theorem passed_iff_sure (hdoc : decimals.Documented atomics) (hsound : proposal.Sound atomics) {block closing : β}
    (hopen : isExpired proposal.expires block = false) (hclosed : isExpired proposal.expires closing = true) :
    proposal.isPassed decimals isExpired block = some true ↔
      ∀ ballots grown, proposal.votes.count ballots = some grown → grown.cast ≤ proposal.totalWeight.val →
        (proposal.withVotes grown).isPassed decimals isExpired closing = some true := by
  have hclosing : ∀ grown : Votes, grown.cast ≤ proposal.totalWeight.val →
      ((proposal.withVotes grown).isPassed decimals isExpired closing = some true ↔
        (proposal.withVotes grown).Passes atomics true) := by
    intro grown hcast
    rw [isPassed_true_iff hdoc (hsound.withVotes hcast), withVotes_expires, hclosed]
  rw [isPassed_true_iff hdoc hsound, hopen]
  constructor
  · intro hpasses ballots grown hcount hcast
    rw [hclosing grown hcast]
    exact hpasses.withVotes (Votes.count_grows hcount) hcast true
  · intro hsure
    have hnow := (hclosing _ hsound.1).mp (hsure [] proposal.votes rfl hsound.1)
    -- The worst that can happen is that everyone left votes no.
    obtain ⟨ballots, grown, hcount, hcast, hyes, habstain⟩ := remaining_no hsound.1
    have hworst := (hclosing grown hcast.le).mp (hsure ballots grown hcount hcast.le)
    have hopinions : (proposal.withVotes grown).opinions true = proposal.opinions false := by
      unfold opinions
      rw [if_pos rfl, if_neg Bool.false_ne_true, withVotes_votes, hcast, habstain]
    cases hthreshold : proposal.threshold with
    | absoluteCount weight =>
      simp only [Passes, withVotes_threshold, hthreshold] at hnow ⊢
      exact hnow
    | absolutePercentage percentage =>
      simp only [Passes, withVotes_threshold, hthreshold] at hnow ⊢
      exact hnow
    | thresholdQuorum threshold quorum =>
      simp only [Passes, withVotes_threshold, hthreshold, withVotes_votes, hopinions, hyes] at hnow hworst ⊢
      exact ⟨hnow.1, hworst.2⟩

/-- Expirations at a height. -/
def atHeight (height block : Nat) : Bool := decide (height ≤ block)

theorem atHeight_monotone (height : Nat) : Monotone (atHeight height) := by
  intro b b' hle hexpired
  exact decide_eq_true ((of_decide_eq_true hexpired).trans hle)

/-- Half of fifteen votes are needed, and two fifths of them for the quorum; four are against. -/
def motion (yes : U64) : Proposal Uint128 Nat where
  expires := 10
  status := .open
  threshold := .thresholdQuorum ⟨5 * 10 ^ 17, by decide⟩ ⟨4 * 10 ^ 17, by decide⟩
  totalWeight := 15
  votes := ⟨yes, 4, 0, 0⟩

theorem motion_sound (yes : U64) (h : yes.val ≤ 11) : (motion yes).Sound Word.val := by
  constructor
  · change yes.val + 4 + 0 + 0 ≤ 15
    omega
  · exact ⟨by decide, by decide⟩

theorem passed_iff_sure_of_majority : (motion 8).isPassed Decimals.atomic atHeight 5 = some true ↔
    ∀ ballots grown, (motion 8).votes.count ballots = some grown → grown.cast ≤ 15 →
      ((motion 8).withVotes grown).isPassed Decimals.atomic atHeight 12 = some true :=
  passed_iff_sure Decimals.atomic_documented (motion_sound 8 (by decide)) (by decide) (by decide)

/-- What `isRejected` says is final: the proposal does not count as passed, and no votes that can still be
given change either. -/
theorem rejected_for_good (hdoc : decimals.Documented atomics) (hsound : proposal.Sound atomics) {block : β}
    (h : proposal.isRejected decimals isExpired block = some true) :
    proposal.isPassed decimals isExpired block = some false ∧
      (isExpired proposal.expires block = false → ∀ ballots grown, proposal.votes.count ballots = some grown →
        grown.cast ≤ proposal.totalWeight.val → ∀ later,
          (proposal.withVotes grown).isRejected decimals isExpired later = some true ∧
            (proposal.withVotes grown).isPassed decimals isExpired later = some false) := by
  rw [isRejected_true_iff hdoc hsound] at h
  refine ⟨(isPassed_false_iff hdoc hsound block).mpr (h.not_passes hsound), ?_⟩
  intro hopen ballots grown hcount hcast later
  rw [hopen] at h
  have hfails := h.withVotes (Votes.count_grows hcount) hcast (isExpired proposal.expires later)
  have hgrown : (proposal.withVotes grown).Sound atomics := hsound.withVotes hcast
  exact ⟨(isRejected_true_iff hdoc hgrown later).mpr hfails,
    (isPassed_false_iff hdoc hgrown later).mpr (hfails.not_passes hgrown)⟩

/-- With nine votes against, the motion is lost while it is still open. -/
theorem rejected_for_good_of_nine : ((motion 0).withVotes ⟨0, 9, 0, 0⟩).isPassed Decimals.atomic
      atHeight 5 = some false ∧
    (atHeight (motion 0).expires 5 = false → ∀ ballots grown, (⟨0, 9, 0, 0⟩ : Votes).count ballots = some grown →
      grown.cast ≤ 15 → ∀ later,
        ((motion 0).withVotes grown).isRejected Decimals.atomic atHeight later = some true ∧
          ((motion 0).withVotes grown).isPassed Decimals.atomic atHeight later = some false) :=
  rejected_for_good Decimals.atomic_documented ((motion_sound 0 (by decide)).withVotes (by decide)) (by decide)

end Proposal
end Voting
end ComdexRwa.Cw3
