import ComdexRwa.Cw3.Voting
import Mathlib.Algebra.Order.BigOperators.Group.List

/-! The status of a proposal over time: it follows from the votes and the block, and may be stored at any
time or at none. -/
namespace ComdexRwa.Cw3
open Foundation
open ComdexRwa.Core (U64 Uint128)

/-- What happens to a proposal: a vote is counted, or its status is brought up to date. -/
inductive Move where
  | ballot (vote : Vote) (weight : U64)
  | poll
  deriving DecidableEq, Repr

namespace Move

private def ballot? : Move → Option (Vote × U64)
  | .ballot vote weight => some (vote, weight)
  | .poll => none

def weight : Move → Nat
  | .ballot _ weight => weight.val
  | .poll => 0

end Move

/-- What a stored status says for good: everything but that the vote is open. -/
private def Status.settled (status : Status) : Option Status := if status = .open then none else some status

private theorem Status.settled_getD {known : Option Status} (h : known ≠ some .open) :
    (known.getD .open).settled = known := by
  cases known with
  | none => rfl
  | some status => exact if_neg fun hopen => h (congrArg some hopen)

section Polls
variable {δ ξ β : Type} {decimals : Decimals δ} {isExpired : ξ → β → Bool} {atomics : δ → Nat}
  {proposal : Proposal δ ξ} {timeline : List (β × Move)} {last : β}

namespace Proposal

/-- One move, in the block it happens in. -/
def move (decimals : Decimals δ) (isExpired : ξ → β → Bool) (proposal : Proposal δ ξ) (entry : β × Move) :
    Option (Proposal δ ξ) :=
  match entry.2 with
  | .ballot vote weight => do pure (proposal.withVotes (← proposal.votes.addVote vote weight))
  | .poll => proposal.updateStatus decimals isExpired entry.1

def play (decimals : Decimals δ) (isExpired : ξ → β → Bool) (proposal : Proposal δ ξ)
    (timeline : List (β × Move)) : Option (Proposal δ ξ) :=
  timeline.foldlM (move decimals isExpired) proposal

private theorem play_cons (entry : β × Move) : proposal.play decimals isExpired (entry :: timeline) =
    (proposal.move decimals isExpired entry).bind fun next => next.play decimals isExpired timeline :=
  List.foldlM_cons ..

/-- A timeline as a contract lets it happen: its blocks come in order and before the last one, votes are given
while the proposal has not expired, and nobody votes with more than there is. -/
structure Timely [LE β] (isExpired : ξ → β → Bool) (proposal : Proposal δ ξ) (timeline : List (β × Move))
    (last : β) : Prop where
  ordered : (timeline.map Prod.fst ++ [last]).Pairwise (· ≤ ·)
  inTime : ∀ block vote weight, (block, Move.ballot vote weight) ∈ timeline → isExpired proposal.expires block = false
  weight : proposal.votes.cast + (timeline.map fun entry => entry.2.weight).sum ≤ proposal.totalWeight.val

open scoped Classical in
/-- What a proposal has come to, with the votes counted by a block. -/
private noncomputable def verdict (atomics : δ → Nat) (isExpired : ξ → β → Bool) (proposal : Proposal δ ξ)
    (s : Votes × β) : Option Status :=
  if (proposal.withVotes s.1).Passes atomics (isExpired proposal.expires s.2) then some .passed
  else if (proposal.withVotes s.1).Fails atomics (isExpired proposal.expires s.2) ∨
    isExpired proposal.expires s.2 = true then some .rejected
  else none

/-- The later course of a vote: more votes within the weight, and none once it is over. -/
structure After [LE β] (isExpired : ξ → β → Bool) (proposal : Proposal δ ξ) (s t : Votes × β) : Prop where
  block : s.2 ≤ t.2
  votes : s.1.Grows t.1
  cast : t.1.cast ≤ proposal.totalWeight.val
  closed : isExpired proposal.expires s.2 = true → t.1 = s.1

private theorem verdict_ne_open (s : Votes × β) : proposal.verdict atomics isExpired s ≠ some .open := by
  unfold verdict
  split
  · exact fun h => nomatch h
  · split
    · exact fun h => nomatch h
    · exact fun h => nomatch h

private theorem verdict_passed {s : Votes × β}
    (h : (proposal.withVotes s.1).Passes atomics (isExpired proposal.expires s.2)) :
    proposal.verdict atomics isExpired s = some .passed := if_pos h

private theorem verdict_rejected {s : Votes × β}
    (hpasses : ¬ (proposal.withVotes s.1).Passes atomics (isExpired proposal.expires s.2))
    (h : (proposal.withVotes s.1).Fails atomics (isExpired proposal.expires s.2) ∨
      isExpired proposal.expires s.2 = true) :
    proposal.verdict atomics isExpired s = some .rejected := by
  unfold verdict
  rw [if_neg hpasses, if_pos h]

/-- A verdict stands in the later course of the vote. -/
private theorem verdict_stands [Preorder β] (hlater : ∀ e : ξ, Monotone (isExpired e))
    (hsound : proposal.Sound atomics) :
    Stands (proposal.After isExpired) (proposal.verdict atomics isExpired) := by
  rintro ⟨votes, b⟩ ⟨grown, b'⟩ v hafter hv
  obtain ⟨hblock, hgrows, hcast, hclosed⟩ := hafter
  cases hexpired : isExpired proposal.expires b with
  | true =>
    obtain rfl : grown = votes := hclosed hexpired
    have hexpired' : isExpired proposal.expires b' = true := hlater _ hblock hexpired
    rw [← hv]
    unfold verdict
    rw [hexpired, hexpired']
  | false =>
    unfold verdict at hv
    rw [hexpired] at hv
    split at hv
    next hpasses =>
      cases hv
      exact verdict_passed (hpasses.withVotes hgrows hcast _)
    next =>
      split at hv
      next hfails =>
        cases hv
        rcases hfails with hfails | hclosed
        · have hfails : (proposal.withVotes grown).Fails atomics (isExpired proposal.expires b') :=
            hfails.withVotes hgrows hcast _
          exact verdict_rejected (hfails.not_passes (hsound.withVotes hcast)) (.inl hfails)
        · cases hclosed
      next => cases hv

/-- The status is computed without a panic: what is stored for good, or else the verdict. -/
private theorem currentStatus_eq (hdoc : decimals.Documented atomics) (hsound : proposal.Sound atomics) (block : β) :
    proposal.currentStatus decimals isExpired block =
      some ((record (proposal.verdict atomics isExpired) proposal.status.settled
        (proposal.votes, block)).getD .open) := by
  by_cases hopen : proposal.status = .open
  · obtain ⟨passed, hpassed, hpasses⟩ := isPassed_eq isExpired hdoc hsound block
    obtain ⟨rejected, hrejected, hfails⟩ := isRejected_eq isExpired hdoc hsound block
    have hsettled : proposal.status.settled = none := if_pos hopen
    rw [hsettled]
    change _ = some ((proposal.verdict atomics isExpired (proposal.votes, block)).getD .open)
    unfold currentStatus
    rw [if_pos hopen, hpassed, hopen]
    simp only [Option.bind_eq_bind, Option.bind_some]
    cases passed with
    | true =>
      have hpasses : (proposal.withVotes proposal.votes).Passes atomics (isExpired proposal.expires block) :=
        hpasses.mp rfl
      rw [verdict_passed (s := (proposal.votes, block)) hpasses]
      rfl
    | false =>
      have hpasses : ¬ (proposal.withVotes proposal.votes).Passes atomics (isExpired proposal.expires block) :=
        fun h => nomatch hpasses.mpr h
      rw [hrejected]
      cases hover : rejected || isExpired proposal.expires block with
      | true =>
        have hfailsOrOver := (Bool.or_eq_true _ _).mp hover
        rw [hfails] at hfailsOrOver
        rw [verdict_rejected (s := (proposal.votes, block)) hpasses hfailsOrOver]
        simp only [Bool.false_eq_true, if_false, if_true, Option.bind_some, Option.pure_def, hover]
        rfl
      | false =>
        have hnone : proposal.verdict atomics isExpired (proposal.votes, block) = none := by
          unfold verdict
          rw [if_neg hpasses, if_neg]
          intro h
          rw [← Bool.not_eq_true, Bool.or_eq_true, hfails] at hover
          exact hover h
        rw [hnone]
        simp only [Bool.false_eq_true, if_false, if_true, Option.bind_some, Option.pure_def, hover]
        rfl
  · have hsettled : proposal.status.settled = some proposal.status := if_neg hopen
    rw [hsettled]
    unfold currentStatus
    rw [if_neg hopen]
    simp only [Option.bind_eq_bind, Option.pure_def, Option.bind_some, Bool.false_eq_true, if_false, if_neg hopen]
    rfl

private theorem updateStatus_eq (hdoc : decimals.Documented atomics) (hsound : proposal.Sound atomics) (block : β) :
    proposal.updateStatus decimals isExpired block = some { proposal with
      status := (record (proposal.verdict atomics isExpired) proposal.status.settled
        (proposal.votes, block)).getD .open } := by
  unfold updateStatus
  rw [currentStatus_eq hdoc hsound block]
  rfl

/-- What the moves leave alone. -/
structure SameTerms (proposal next : Proposal δ ξ) : Prop where
  expires : next.expires = proposal.expires
  threshold : next.threshold = proposal.threshold
  totalWeight : next.totalWeight = proposal.totalWeight

private theorem SameTerms.trans {p q r : Proposal δ ξ} (hpq : p.SameTerms q) (hqr : q.SameTerms r) : p.SameTerms r :=
  ⟨hqr.expires.trans hpq.expires, hqr.threshold.trans hpq.threshold, hqr.totalWeight.trans hpq.totalWeight⟩

private theorem SameTerms.verdict_eq {next : Proposal δ ξ} (h : proposal.SameTerms next) :
    next.verdict atomics isExpired = proposal.verdict atomics isExpired := by
  obtain ⟨_, _, _, _, _⟩ := proposal
  obtain ⟨_, _, _, _, _⟩ := next
  obtain ⟨rfl, rfl, rfl⟩ := h
  rfl

/-- One move that is in time: it does not panic, counts its ballot, and stores nothing but a verdict that will
stand in every later block. -/
private theorem move_spec [Preorder β] (hdoc : decimals.Documented atomics) (hlater : ∀ e : ξ, Monotone (isExpired e))
    (hsound : proposal.Sound atomics) {block : β} {m : Move}
    (hinTime : ∀ vote weight, m = .ballot vote weight → isExpired proposal.expires block = false)
    (hweight : proposal.votes.cast + m.weight ≤ proposal.totalWeight.val)
    (hearned : Earned (proposal.verdict atomics isExpired) proposal.status.settled (proposal.votes, block)) :
    ∃ next, proposal.move decimals isExpired (block, m) = some next ∧ proposal.SameTerms next ∧
      proposal.votes.count m.ballot?.toList = some next.votes ∧
      next.votes.cast = proposal.votes.cast + m.weight ∧
      ∀ b, block ≤ b → Earned (proposal.verdict atomics isExpired) next.status.settled (next.votes, b) := by
  cases m with
  | ballot vote weight =>
    have hfits : proposal.votes.cast + weight.val < 2 ^ 64 := hweight.trans_lt proposal.totalWeight.isLt
    obtain ⟨grown, hgrown⟩ := Votes.addVote_some vote hfits
    obtain ⟨hgrows, hcast⟩ := Votes.addVote_grows hgrown
    have hmove : proposal.move decimals isExpired (block, .ballot vote weight) = some (proposal.withVotes grown) :=
      Option.bind_eq_some_iff.mpr ⟨grown, hgrown, rfl⟩
    have hcount : proposal.votes.count [(vote, weight)] = some grown := by
      rw [Votes.count_cons, hgrown]
      rfl
    refine ⟨_, hmove, ⟨rfl, rfl, rfl⟩, hcount, hcast, ?_⟩
    intro b hb
    apply hearned.later (verdict_stands hlater hsound)
    exact ⟨hb, hgrows, hcast.trans_le hweight, fun h => nomatch (hinTime vote weight rfl).symm.trans h⟩
  | poll =>
    refine ⟨_, updateStatus_eq hdoc hsound block, ⟨rfl, rfl, rfl⟩, rfl, rfl, ?_⟩
    intro b hb
    rw [Status.settled_getD (hearned.record_ne (verdict_ne_open _))]
    apply hearned.recorded.later (verdict_stands hlater hsound)
    exact ⟨hb, .refl _, hsound.1, fun _ => rfl⟩

/-- Along a timeline nothing panics, the ballots are all counted, and what is stored is the verdict. -/
private theorem play_spec [Preorder β] (hdoc : decimals.Documented atomics) (hlater : ∀ e : ξ, Monotone (isExpired e))
    (hsound : proposal.Sound atomics) (htimely : proposal.Timely isExpired timeline last)
    (hearned : ∀ block ∈ timeline.map Prod.fst ++ [last],
      Earned (proposal.verdict atomics isExpired) proposal.status.settled (proposal.votes, block)) :
    ∃ final, proposal.play decimals isExpired timeline = some final ∧ proposal.SameTerms final ∧
      proposal.votes.count (timeline.flatMap fun entry => entry.2.ballot?.toList) = some final.votes ∧
      final.Sound atomics ∧
      Earned (proposal.verdict atomics isExpired) final.status.settled (final.votes, last) := by
  induction timeline generalizing proposal with
  | nil => exact ⟨proposal, rfl, ⟨rfl, rfl, rfl⟩, rfl, hsound, hearned last (by simp)⟩
  | cons entry timeline ih =>
    obtain ⟨block, m⟩ := entry
    obtain ⟨hordered, hinTime, hweight⟩ := htimely
    rw [List.map_cons, List.sum_cons, ← Nat.add_assoc] at hweight
    obtain ⟨next, hmove, hterms, hcount, hcast, hnext⟩ := move_spec hdoc hlater hsound
      (fun vote weight hm => hinTime block vote weight (List.mem_cons.mpr (.inl (Prod.ext rfl hm.symm))))
      ((Nat.le_add_right _ _).trans hweight) (hearned block (by simp))
    have hblock : ∀ b ∈ timeline.map Prod.fst ++ [last], block ≤ b := fun b => List.rel_of_pairwise_cons hordered
    have htimely : next.Timely isExpired timeline last := by
      refine ⟨hordered.of_cons, ?_, ?_⟩
      · intro b vote weight hmem
        rw [hterms.expires]
        exact hinTime b vote weight (List.mem_cons_of_mem _ hmem)
      · rwa [hcast, hterms.totalWeight]
    have hsound' : next.Sound atomics := by
      refine ⟨?_, ?_⟩
      · rw [hcast, hterms.totalWeight]
        exact (Nat.le_add_right _ _).trans hweight
      · rw [hterms.threshold, hterms.totalWeight]
        exact hsound.2
    obtain ⟨final, hplay, hterms', hcount', hfinal, hlast⟩ := ih hsound' htimely (by
      intro b hb
      rw [hterms.verdict_eq]
      exact hnext b (hblock b hb))
    rw [hterms.verdict_eq] at hlast
    refine ⟨final, ?_, hterms.trans hterms', ?_, hfinal, hlast⟩
    · rw [play_cons, hmove, Option.bind_some, hplay]
    · rw [List.flatMap_cons, Votes.count_append, hcount, Option.bind_some, hcount']

private theorem timely_ballots [LE β] (htimely : proposal.Timely isExpired timeline last) :
    proposal.Timely isExpired (timeline.filter fun entry => entry.2 ≠ .poll) last := by
  obtain ⟨hordered, hinTime, hweight⟩ := htimely
  have hsub : (timeline.filter fun entry => entry.2 ≠ .poll).Sublist timeline := List.filter_sublist
  refine ⟨hordered.sublist ((hsub.map _).append_right _), ?_, ?_⟩
  · intro block vote weight hmem
    exact hinTime block vote weight (hsub.mem hmem)
  · refine (Nat.add_le_add_left ?_ _).trans hweight
    exact (hsub.map _).sum_le_sum (by simp)

private theorem ballots_filter (timeline : List (β × Move)) :
    (timeline.filter fun entry => entry.2 ≠ .poll).flatMap (fun entry => entry.2.ballot?.toList) =
      timeline.flatMap fun entry => entry.2.ballot?.toList := by
  induction timeline with
  | nil => rfl
  | cons entry timeline ih =>
    obtain ⟨block, _ | _⟩ := entry
    · rw [List.filter_cons_of_pos (by simp), List.flatMap_cons, List.flatMap_cons, ih]
    · rw [List.filter_cons_of_neg (by simp), List.flatMap_cons, ih]
      rfl

/-- As long as votes are given in time and within the total weight, it does not matter when the status of an open
proposal is brought up to date: at the end of a timeline it is what it would be if it never had been, and with the
time over the vote is decided, by what `isPassed` says. -/
theorem polls_agree [Preorder β] (hdoc : decimals.Documented atomics) (hlater : ∀ e : ξ, Monotone (isExpired e))
    (hsound : proposal.Sound atomics) (hopen : proposal.status = .open)
    (htimely : proposal.Timely isExpired timeline last) :
    ∃ polled plain status, proposal.play decimals isExpired timeline = some polled ∧
      proposal.play decimals isExpired (timeline.filter fun entry => entry.2 ≠ .poll) = some plain ∧
      polled.votes = plain.votes ∧
      polled.currentStatus decimals isExpired last = some status ∧
      plain.currentStatus decimals isExpired last = some status ∧
      (isExpired proposal.expires last = true →
        (status = .passed ∧ plain.isPassed decimals isExpired last = some true ∨
          status = .rejected ∧ plain.isPassed decimals isExpired last = some false)) := by
  have hearned : ∀ s, Earned (proposal.verdict atomics isExpired) proposal.status.settled s := by
    intro s
    rw [Status.settled, if_pos hopen]
    exact .nothing s
  obtain ⟨polled, hpolled, hterms, hcount, hpsound, hlast⟩ :=
    play_spec hdoc hlater hsound htimely (fun block _ => hearned _)
  obtain ⟨plain, hplain, hterms', hcount', hplainsound, hlast'⟩ :=
    play_spec hdoc hlater hsound (timely_ballots htimely) (fun block _ => hearned _)
  have hvotes : polled.votes = plain.votes := by
    rw [ballots_filter, hcount] at hcount'
    exact Option.some_inj.mp hcount'
  refine ⟨polled, plain, _, hpolled, hplain, hvotes, currentStatus_eq hdoc hpsound last, ?_, ?_⟩
  · rw [currentStatus_eq hdoc hplainsound, hterms.verdict_eq, hterms'.verdict_eq, hlast.record_eq, hlast'.record_eq,
      hvotes]
  · intro hexpired
    rw [hterms.verdict_eq, hlast.record_eq, hvotes, isPassed_true_iff hdoc hplainsound,
      isPassed_false_iff hdoc hplainsound, ← hterms'.verdict_eq]
    have hexpired' : isExpired plain.expires last = true := by rwa [hterms'.expires]
    by_cases hpasses : plain.Passes atomics (isExpired plain.expires last)
    · rw [verdict_passed (s := (plain.votes, last)) hpasses]
      exact .inl ⟨rfl, hpasses⟩
    · rw [verdict_rejected (s := (plain.votes, last)) hpasses (.inr hexpired')]
      exact .inr ⟨rfl, hpasses⟩

/-- The motion is polled after each ballot. -/
theorem polls_agree_of_motion : ∃ polled plain status,
    (motion 0).play Decimals.atomic atHeight
      [(1, .ballot .yes 5), (1, .poll), (3, .ballot .abstain 2), (3, .poll)] = some polled ∧
    (motion 0).play Decimals.atomic atHeight [(1, .ballot .yes 5), (3, .ballot .abstain 2)] = some plain ∧
    polled.votes = plain.votes ∧
    polled.currentStatus Decimals.atomic atHeight 12 = some status ∧
    plain.currentStatus Decimals.atomic atHeight 12 = some status ∧
    (atHeight (motion 0).expires 12 = true →
      (status = .passed ∧ plain.isPassed Decimals.atomic atHeight 12 = some true ∨
        status = .rejected ∧ plain.isPassed Decimals.atomic atHeight 12 = some false)) := by
  apply polls_agree Decimals.atomic_documented _ (motion_sound 0 (by decide)) rfl
  · refine ⟨by decide, ?_, by decide⟩
    intro block vote weight hmem
    simp only [List.mem_cons, Prod.mk.injEq, reduceCtorEq, and_false, List.not_mem_nil, or_false, false_or] at hmem
    rcases hmem with ⟨rfl, _⟩ | ⟨rfl, _⟩ <;> rfl
  · exact atHeight_monotone

end Proposal
end Polls
end ComdexRwa.Cw3
