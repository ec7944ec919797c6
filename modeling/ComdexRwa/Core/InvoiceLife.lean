import ComdexRwa.Core.InvoiceBook
import ComdexRwa.Foundation.Instalment

/-! The life of an invoice: its record is a debt paid in instalments, agreed to and paid by its payee.
What the debt keeps, the record keeps; what raising an invoice gets wrong, it carries along. -/
namespace ComdexRwa.Core
open Foundation

def Status.stage : Status → Stage
  | .raised => .proposed
  | .accepted => .agreed
  | .partiallyPaid => .partly
  | .paid => .settled

theorem Status.stage_injective : Function.Injective Status.stage := by
  intro old new h
  cases old <;> cases new <;> first | rfl | cases h

/-- The debt that an invoice records. -/
def Invoice.debt (invoice : Invoice) : Debt :=
  ⟨invoice.receivable.amount.val, invoice.amountPaid.amount.val, invoice.dueAmount.amount.val, invoice.status.stage⟩

section Refinement
variable {s : Storage} {info : MessageInfo} {invoiceId : U64}

/-- The record that a payment leaves shows the debt after one more instalment. -/
theorem PaymentReady.debt {b : PaymentBasis} (hready : PaymentReady s info invoiceId b) :
    (b.invoice.credited b.total).debt = b.invoice.debt.pay b.fund.amount.val := by
  have htotal := hready.total
  have hfull : b.total = b.invoice.receivable.amount ↔
      b.invoice.amountPaid.amount.val + b.fund.amount.val = b.invoice.receivable.amount.val := by
    rw [← htotal]
    exact ⟨congrArg Word.val, fun h => Word.ext h⟩
  apply Debt.ext
  · rfl
  · exact htotal
  · change b.invoice.receivable.amount.val - b.total.val = _
    rw [htotal]
    rfl
  · change Status.stage (if b.total = b.invoice.receivable.amount then .paid else .partiallyPaid) = _
    rw [apply_ite Status.stage]
    exact if_congr hfull rfl rfl

private theorem PaymentReady.step {b : PaymentBasis} (hready : PaymentReady s info invoiceId b) :
    Debt.Step b.invoice.debt (b.invoice.credited b.total).debt := by
  rw [hready.debt]
  refine .pay _ ?_ ?_ ?_
  · intro hstage
    exact hready.accepted (Status.stage_injective hstage)
  · intro hstage
    exact hready.unpaid (Status.stage_injective hstage)
  · have hle := (Word.le_iff _ _).mp hready.within
    rwa [hready.total] at hle

/-- Every rewriting of an invoice is one step of its debt. -/
theorem Rewrite.step {c : Call} {old new : Invoice} (h : Rewrite s invoiceId c old new) :
    Debt.Step old.debt new.debt := by
  cases h with
  | accept hready => exact .agree (congrArg Status.stage hready.raised)
  | credit hready => exact hready.step

end Refinement

/-- The statuses an invoice can have after one call, the one it had among them. -/
inductive Status.Moves : Status → Status → Prop where
  | stay (status : Status) : Moves status status
  | accept : Moves .raised .accepted
  | payPart : Moves .accepted .partiallyPaid
  | payAll : Moves .accepted .paid
  | payRest : Moves .partiallyPaid .paid

private theorem Status.moves_of_stage {old new : Status} (h : old.stage.Moves new.stage) : old.Moves new := by
  cases old <;> cases new <;> first | constructor | cases h

/-- What the status of an invoice tells of its amounts. -/
structure Invoice.Telling (invoice : Invoice) : Prop where
  within : invoice.amountPaid.amount ≤ invoice.receivable.amount
  unpaid : invoice.status = .raised ∨ invoice.status = .accepted → invoice.amountPaid.amount = 0
  started : invoice.status = .partiallyPaid →
    0 < invoice.amountPaid.amount ∧ invoice.amountPaid.amount < invoice.receivable.amount
  settled : invoice.status = .paid →
    invoice.amountPaid.amount = invoice.receivable.amount ∧ invoice.dueAmount.amount = 0

private theorem Invoice.telling_of_sound {invoice : Invoice} (hs : invoice.debt.Sound) : invoice.Telling := by
  have hz : (0 : Uint128).val = 0 := Word.val_zero
  refine ⟨hs.within, ?_, ?_, ?_⟩
  · intro h
    apply Word.ext
    rw [hz]
    exact hs.unpaid (h.imp (congrArg Status.stage) (congrArg Status.stage))
  · intro h
    rw [Word.lt_iff, Word.lt_iff, hz]
    exact hs.started (congrArg Status.stage h)
  · intro h
    obtain ⟨hp, hd⟩ := hs.settled (congrArg Status.stage h)
    exact ⟨Word.ext hp, Word.ext (hd.trans hz.symm)⟩

/-- What the chain promises of the coins it attaches. -/
def Call.fundsPositive (c : Call) : Prop := ∀ coin ∈ c.funds, 0 < coin.amount

instance (c : Call) : Decidable c.fundsPositive := inferInstanceAs (Decidable (∀ coin ∈ c.funds, 0 < coin.amount))

section Laws
variable {env : Env} {h : History} {s : Storage}

private theorem raised_sound (terms : InvoiceTerms) (sender : Addr) (id : U64) :
    (terms.raised sender id).debt.Sound :=
  ⟨fun _ => Word.val_zero, fun h => (nomatch h), fun h => (nomatch h)⟩

private theorem Rewrite.sound {k : U64} {c : Call} {old new : Invoice} (hw : Rewrite s k c old new)
    (hpos : c.fundsPositive) (hs : old.debt.Sound) : new.debt.Sound := by
  cases hw with
  | accept hready => exact hs.agree (congrArg Status.stage hready.raised)
  | @credit info b hready =>
    rw [hready.debt]
    have hcoin : 0 < b.fund.amount := hpos b.fund (by simp [Call.funds, hready.single])
    rw [Word.lt_iff, Word.val_zero] at hcoin
    have hle := (Word.le_iff _ _).mp hready.within
    rw [hready.total] at hle
    exact .pay hcoin hle

private theorem debts_sound (hr : Run (rwa env) h s) (hpos : ∀ e ∈ h, e.call.fundsPositive) :
    ∀ k invoice, s.invoice.lookup k = some invoice → invoice.debt.Sound := by
  refine rwa_invariant_under (G := fun _ c => c.fundsPositive)
    (I := fun s => ∀ k invoice, s.invoice.lookup k = some invoice → invoice.debt.Sound) ?_ ?_ hr hpos
  · intro k invoice hk
    cases hk
  · intro h s c r s' _ hi _ hc he k invoice hk
    rcases he.invoiceMove.origin hk with hk | ⟨info, terms, b, _, _, _, rfl⟩ | ⟨old, hw⟩
    · exact hi k invoice hk
    · exact raised_sound _ _ _
    · exact hw.sound hc (hi k old hw.stored)

/-- What the status tells of the amounts when payments of nothing are not ruled out. -/
structure Invoice.Measured (invoice : Invoice) : Prop where
  within : invoice.amountPaid.amount ≤ invoice.receivable.amount
  unpaid : invoice.status = .raised ∨ invoice.status = .accepted → invoice.amountPaid.amount = 0
  short : invoice.status = .partiallyPaid → invoice.amountPaid.amount < invoice.receivable.amount

private theorem Rewrite.measured {k : U64} {c : Call} {old new : Invoice} (hw : Rewrite s k c old new)
    (hm : old.Measured) : new.Measured := by
  cases hw with
  | accept hready =>
    exact ⟨hm.within, fun _ => hm.unpaid (.inl hready.raised), fun hst => (nomatch hst)⟩
  | @credit info b hready =>
    rcases b.invoice.credited_status b.total with ⟨_, hst⟩ | ⟨hne, hst⟩
    · refine ⟨hready.within, fun hopen => ?_, fun hopen => ?_⟩
      · rw [hst] at hopen
        rcases hopen with hopen | hopen <;> cases hopen
      · cases hst.symm.trans hopen
    · refine ⟨hready.within, fun hopen => ?_, fun _ => lt_of_le_of_ne hready.within hne⟩
      rw [hst] at hopen
      rcases hopen with hopen | hopen <;> cases hopen

theorem measured (hr : Run (rwa env) h s) : ∀ k invoice, s.invoice.lookup k = some invoice → invoice.Measured := by
  refine rwa_invariant (I := fun s => ∀ k invoice, s.invoice.lookup k = some invoice → invoice.Measured) ?_ ?_ hr
  · intro k invoice hk
    cases hk
  · intro s c r s' hi _ he k invoice hk
    rcases he.invoiceMove.origin hk with hk | ⟨info, terms, b, _, _, _, rfl⟩ | ⟨old, hw⟩
    · exact hi k invoice hk
    · exact ⟨Nat.zero_le _, fun _ => rfl, fun hst => (nomatch hst)⟩
    · exact hw.measured (hi k old hw.stored)

/-- What one event leaves of an invoice stored before it. -/
structure Invoice.Follows (new old : Invoice) (k : U64) (e : CallEvent) : Prop where
  terms : new.SameTerms old
  paid : old.amountPaid.amount ≤ new.amountPaid.amount
  status : old.status.Moves new.status
  author : new ≠ old → (∃ r, e.reply = .ok r) ∧ ∃ info, info.sender = old.payeeAddress ∧
    (e.call = .execute info (.acceptInvoice k) ∨ e.call = .execute info (.payInvoice k))

private theorem Invoice.Follows.refl (invoice : Invoice) (k : U64) (e : CallEvent) : invoice.Follows invoice k e :=
  ⟨.refl _, le_refl _, .stay _, fun h => (h rfl).elim⟩

private theorem Rewrite.follows {k : U64} {c : Call} {r : Reply} {s' : Storage} {old new : Invoice}
    (hw : Rewrite s k c old new) : new.Follows old k ⟨s, c, .ok r, s'⟩ :=
  ⟨hw.sameTerms, hw.step.paid_le, Status.moves_of_stage hw.step.moves, fun _ => ⟨⟨r, rfl⟩, hw.by_payee⟩⟩

private theorem invoice_follows (hr : Run (rwa env) h s) : ∀ e ∈ h, ∀ k old, e.before.invoice.lookup k = some old →
    ∃ new, e.after.invoice.lookup k = some new ∧ new.Follows old k e := by
  refine rwa_events (P := fun e => ∀ k old, e.before.invoice.lookup k = some old →
    ∃ new, e.after.invoice.lookup k = some new ∧ new.Follows old k e) ?_ ?_ ?_ hr
  · intro info k old hk
    cases hk
  · intro h s c r s' hr _ he k old hk
    obtain ⟨new, hnew, rfl | hw⟩ := he.invoiceMove.record (next_id_fresh hr) hk
    · exact ⟨new, hnew, .refl _ _ _⟩
    · exact ⟨new, hnew, hw.follows⟩
  · intro h s c e _ _ _ k old hk
    exact ⟨old, hk, .refl _ _ _⟩

/-- An invoice once stored stays stored under its terms, and its debt goes on by steps. -/
theorem invoice_persists (hr : Run (rwa env) h s) : ∀ e ∈ h, ∀ k old, e.after.invoice.lookup k = some old →
    ∃ new, s.invoice.lookup k = some new ∧ new.SameTerms old ∧ Debt.Steps old.debt new.debt := by
  refine rwa_evolves (R := fun s t => ∀ k old, s.invoice.lookup k = some old →
    ∃ new, t.invoice.lookup k = some new ∧ new.SameTerms old ∧ Debt.Steps old.debt new.debt) ?_ ?_ ?_ hr
  · exact fun s k old hk => ⟨old, hk, .refl _, .refl⟩
  · intro s t u hst htu k old hk
    obtain ⟨mid, hmid, hterms, hsteps⟩ := hst k old hk
    obtain ⟨new, hnew, hterms', hsteps'⟩ := htu k mid hmid
    exact ⟨new, hnew, hterms'.trans hterms, hsteps.trans hsteps'⟩
  · intro h s c r s' hr _ he k old hk
    obtain ⟨new, hnew, rfl | hw⟩ := he.invoiceMove.record (next_id_fresh hr) hk
    · exact ⟨new, hnew, .refl _, .refl⟩
    · exact ⟨new, hnew, hw.sameTerms, .single hw.step⟩

/-- The life cycle of every invoice along a history that ends in `s`. -/
structure LifeCycle (h : History) (s : Storage) : Prop where
  follows : ∀ e ∈ h, ∀ k old, e.before.invoice.lookup k = some old →
    ∃ new, e.after.invoice.lookup k = some new ∧ new.Follows old k e
  persists : ∀ e ∈ h, ∀ k old, e.after.invoice.lookup k = some old →
    ∃ new, s.invoice.lookup k = some new ∧ new.SameTerms old ∧ old.amountPaid.amount ≤ new.amountPaid.amount
  telling : ∀ k invoice, s.invoice.lookup k = some invoice → invoice.Telling

/-- Every run takes its invoices through their life cycle. -/
theorem invoice_life_cycle (hr : Run (rwa env) h s) (hpos : ∀ e ∈ h, e.call.fundsPositive) : LifeCycle h s := by
  refine ⟨invoice_follows hr, ?_, ?_⟩
  · intro e he k old hk
    obtain ⟨new, hnew, hterms, hsteps⟩ := invoice_persists hr e he k old hk
    exact ⟨new, hnew, hterms, hsteps.paid_le⟩
  · intro k invoice hk
    exact Invoice.telling_of_sound (debts_sound hr hpos k invoice hk)

/-- The invoice of a hundred dollars, accepted and paid in two parts. -/
def Sample.settled : List Call := Sample.invoiced ++ [Sample.pay "uusd" 40, Sample.pay "uusd" 60]

theorem invoice_life_cycle_of_settled : LifeCycle (Sample.history Sample.settled) (Sample.storage Sample.settled) ∧
    ((Sample.storage Sample.settled).invoice.lookup Sample.invoiceId).map Invoice.status = some .paid := by
  refine ⟨invoice_life_cycle (Sample.run Sample.settled (by decide)) ?_, by decide⟩
  intro e he
  have hall : ∀ c ∈ Sample.settled, c.fundsPositive := by decide
  rcases call_mem_of_mem he with hc | hc
  · rw [hc]
    decide
  · exact hall _ hc

/-! The balance of the three amounts. -/

/-- What is due and what is paid make up the receivable, in one denomination. -/
structure Invoice.Balanced (invoice : Invoice) : Prop where
  dueDenom : invoice.dueAmount.denom = invoice.receivable.denom
  paidDenom : invoice.amountPaid.denom = invoice.receivable.denom
  sum : invoice.dueAmount.amount.val + invoice.amountPaid.amount.val = invoice.receivable.amount.val

/-- The invoices stored after an event are balanced, and one that it raised counts as paid what
its creator declared to be. -/
structure Reckoned (e : CallEvent) : Prop where
  balanced : ∀ k invoice, e.after.invoice.lookup k = some invoice → invoice.Balanced
  declared : ∀ info terms r, e.call = .execute info (.createInvoice terms) → e.reply = .ok r →
    ∀ k invoice, e.before.invoice.lookup k = none → e.after.invoice.lookup k = some invoice →
      terms.amountPaid.amount ≤ invoice.amountPaid.amount

/-- A call that raises an invoice of which part is declared to be paid already. -/
def prepaid (s : Storage) (c : Call) : Prop :=
  ∃ info terms b, c = .execute info (.createInvoice terms) ∧ InvoiceReady s info terms b ∧
    0 < terms.amountPaid.amount

private theorem Rewrite.balanced {k : U64} {c : Call} {old new : Invoice} (hw : Rewrite s k c old new)
    (hb : old.Balanced) : new.Balanced := by
  have hsum := hw.step.balanced hb.sum
  cases hw with
  | accept _ => exact ⟨hb.dueDenom, hb.paidDenom, hsum⟩
  | credit _ => exact ⟨hb.dueDenom, hb.paidDenom, hsum⟩

private theorem raised_balanced_iff {info : MessageInfo} {terms : InvoiceTerms} {b : InvoiceBasis}
    (hready : InvoiceReady s info terms b) :
    (terms.raised info.sender b.id).Balanced ↔ terms.amountPaid.amount.val = 0 := by
  have hle := (Word.le_iff _ _).mp hready.covered
  have hsum : (terms.raised info.sender b.id).dueAmount.amount.val +
      (terms.raised info.sender b.id).amountPaid.amount.val =
        terms.receivable.amount.val - terms.amountPaid.amount.val := by
    change _ - _ + (0 : Uint128).val = _
    rw [Word.val_zero, Nat.add_zero]
  constructor
  · intro hb
    have hrec : _ = terms.receivable.amount.val := hb.sum
    omega
  · intro hz
    refine ⟨rfl, rfl, ?_⟩
    rw [hsum, hz]
    rfl

/-- Without a declared payment, none of the amounts is off. -/
private theorem unpaid_of_not_prepaid {info : MessageInfo} {terms : InvoiceTerms} {b : InvoiceBasis}
    (hready : InvoiceReady s info terms b) (hno : ¬ prepaid s (.execute info (.createInvoice terms))) :
    terms.amountPaid.amount.val = 0 := by
  by_contra hne
  apply hno
  refine ⟨info, terms, b, rfl, hready, ?_⟩
  rw [Word.lt_iff, Word.val_zero]
  exact Nat.pos_of_ne_zero hne

private theorem reckoned_iff {c : Call} {r : Reply} {s' : Storage} (he : Effect env s c r s')
    (hb : ∀ k invoice, s.invoice.lookup k = some invoice → invoice.Balanced) :
    Reckoned ⟨s, c, .ok r, s'⟩ ↔ ¬ prepaid s c := by
  constructor
  · intro hk hx
    obtain ⟨info, terms, b, rfl, _, hpos⟩ := hx
    rw [Word.lt_iff, Word.val_zero] at hpos
    cases he with
    | createInvoice hready =>
      have hz := (raised_balanced_iff hready).mp (hk.balanced _ _ (Finmap.lookup_insert _))
      exact Nat.ne_of_gt hpos hz
  · intro hno
    constructor
    · intro k invoice hk
      rcases he.invoiceMove.origin hk with hk | ⟨info, terms, b, hready, rfl, _, rfl⟩ | ⟨old, hw⟩
      · exact hb k invoice hk
      · exact (raised_balanced_iff hready).mpr (unpaid_of_not_prepaid hready hno)
      · exact hw.balanced (hb k old hw.stored)
    · rintro info terms _ hc _ k invoice hnone hk
      rcases he.invoiceMove.origin hk with hk | ⟨info', terms', b, hready, hc', _, _⟩ | ⟨old, hw⟩
      · cases hk.symm.trans hnone
      · cases hc.symm.trans hc'
        change c = _ at hc
        subst hc
        rw [Word.le_iff, unpaid_of_not_prepaid hready hno]
        exact Nat.zero_le _
      · cases hw.stored.symm.trans hnone

/-- The amounts of every invoice balance along a run exactly when no invoice is raised as prepaid. -/
theorem amounts_balance_iff (hr : Run (rwa env) h s) :
    (∀ e ∈ h, Reckoned e) ↔ ∀ e ∈ h, ¬ prepaid e.before e.call := by
  refine rwa_throughout (L := fun s => ∀ k invoice, s.invoice.lookup k = some invoice → invoice.Balanced)
    (fun e he => he.balanced) ?_ ?_ ?_ ?_ hr
  · exact fun s c _ hx => effect_of_raises hx
  · intro info
    apply iff_of_true
    · exact ⟨fun k invoice hk => (nomatch hk), fun _ _ _ hc => (nomatch hc)⟩
    · exact not_raises_of_opens rfl
  · intro h s c r s' _ hb he
    exact reckoned_iff he hb
  · intro s c e hb
    exact ⟨hb, fun _ _ _ _ hok => (nomatch hok)⟩

theorem amounts_balance_iff_of_settled :
    (∀ e ∈ Sample.history Sample.settled, Reckoned e) ↔
      ∀ e ∈ Sample.history Sample.settled, ¬ prepaid e.before e.call :=
  amounts_balance_iff (Sample.run Sample.settled (by decide))

/-- The same invoice with forty dollars declared to be paid already. -/
def Sample.prepaid : List Call :=
  Sample.configured ++ [Sample.call Sample.alice (.createInvoice (Sample.terms 40))]

/-- Sixty dollars are due of it and none are paid, though the receivable is a hundred. -/
theorem prepayment_unbalanced :
    Run (rwa Sample.env) (Sample.history Sample.prepaid) (Sample.storage Sample.prepaid) ∧
    ((Sample.storage Sample.prepaid).invoice.lookup Sample.invoiceId).map
        (fun invoice => (invoice.dueAmount, invoice.amountPaid, invoice.receivable)) =
      some (⟨"uusd", 60⟩, ⟨"uusd", 0⟩, ⟨"uusd", 100⟩) ∧
    ¬ ∀ k invoice, (Sample.storage Sample.prepaid).invoice.lookup k = some invoice → invoice.Balanced := by
  have hview : ((Sample.storage Sample.prepaid).invoice.lookup Sample.invoiceId).map
      (fun invoice => (invoice.dueAmount, invoice.amountPaid, invoice.receivable)) =
        some (⟨"uusd", 60⟩, ⟨"uusd", 0⟩, ⟨"uusd", 100⟩) := by decide
  refine ⟨Sample.run Sample.prepaid (by decide), hview, ?_⟩
  intro hall
  obtain ⟨invoice, hk, hamounts⟩ := Option.map_eq_some_iff.mp hview
  have hsum := (hall _ invoice hk).sum
  simp only [Prod.mk.injEq] at hamounts
  rw [hamounts.1, hamounts.2.1, hamounts.2.2] at hsum
  exact absurd hsum (by decide)

end Laws
end ComdexRwa.Core
