import ComdexRwa.Core.TotalsRange

/-! The totals of an account against the calls that made them: what has been invoiced, less what has been
paid of it. No call but these two moves a total, and nothing paid is ever owed again. -/
namespace ComdexRwa.Core
open Foundation Query

/-- The two accounts an invoice is entered for. -/
inductive Side where
  | creditor | payee
  deriving DecidableEq, Repr

namespace Side

def party : Side → Invoice → Addr
  | .creditor => Invoice.from
  | .payee => Invoice.payeeAddress

/-- The same account, as it is known before there is an invoice. -/
def stated (info : MessageInfo) (terms : InvoiceTerms) : Side → Addr
  | .creditor => info.sender
  | .payee => terms.payeeAddress

/-- The total that the account can ask for. -/
def getTotal : Side → Addr → ContractQuery (List Coin)
  | .creditor => getTotalReceivables
  | .payee => getTotalPayables

private theorem party_raised (side : Side) (info : MessageInfo) (terms : InvoiceTerms) (id : U64) :
    side.party (terms.raised info.sender id) = side.stated info terms := by
  cases side <;> rfl

private theorem party_of_sameTerms (side : Side) {invoice old : Invoice} (h : invoice.SameTerms old) :
    side.party invoice = side.party old := by
  cases side with
  | creditor => exact h.creditor
  | payee => exact h.payeeAddress

end Side

/-- What an event has invoiced, for an account on one side and in one denomination. -/
def CallEvent.invoiced (e : CallEvent) (side : Side) (address : Addr) (denom : String) : Nat :=
  match e.call, e.reply with
  | .execute info (.createInvoice terms), .ok _ =>
    if side.stated info terms = address ∧ terms.receivable.denom = denom then terms.receivable.amount.val else 0
  | _, _ => 0

/-- What an event has paid of the invoices of an account, whatever coin it was paid in. -/
def CallEvent.paidOff (e : CallEvent) (side : Side) (address : Addr) (denom : String) : Nat :=
  match e.call, e.reply with
  | .execute info (.payInvoice k), .ok _ =>
    (e.before.invoice.lookup k).elim 0 fun invoice =>
      if side.party invoice = address ∧ invoice.receivable.denom = denom then
        (info.funds.map fun coin => coin.amount.val).sum else 0
  | _, _ => 0

def History.invoiced (h : History) (side : Side) (address : Addr) (denom : String) : Nat :=
  (h.map fun e => e.invoiced side address denom).sum

def History.paidOff (h : History) (side : Side) (address : Addr) (denom : String) : Nat :=
  (h.map fun e => e.paidOff side address denom).sum

section Steps
variable {env : Env} {h : History} {s s' : Storage} {e : CallEvent} {side : Side} {address : Addr} {denom : String}

private theorem invoiced_append (h : History) (e : CallEvent) : History.invoiced (h ++ [e]) side address denom =
    h.invoiced side address denom + e.invoiced side address denom := by
  simp [History.invoiced]

private theorem paidOff_append (h : History) (e : CallEvent) : History.paidOff (h ++ [e]) side address denom =
    h.paidOff side address denom + e.paidOff side address denom := by
  simp [History.paidOff]

/-- A call that fails is not counted. -/
private theorem uncounted_of_error {c : Call} {f : Abort ContractError} :
    CallEvent.invoiced ⟨s, c, .error f, s'⟩ side address denom = 0 ∧
      CallEvent.paidOff ⟨s, c, .error f, s'⟩ side address denom = 0 := by
  unfold CallEvent.invoiced CallEvent.paidOff
  constructor <;> split <;> first | rfl | (rename_i hr; cases hr)

/-- Neither is a call that writes no invoice. -/
private theorem uncounted_of_keeps (s s' : Storage) (side : Side) (address : Addr) (denom : String) {c : Call}
    (r : Reply)
    (hc : c.writesInvoice = false) :
    CallEvent.invoiced ⟨s, c, .ok r, s'⟩ side address denom = 0 ∧
      CallEvent.paidOff ⟨s, c, .ok r, s'⟩ side address denom = 0 := by
  unfold CallEvent.invoiced CallEvent.paidOff
  constructor
  · split
    · rename_i hcall _
      cases (hcall : c = _)
      cases hc
    · rfl
  · split
    · rename_i hcall _
      cases (hcall : c = _)
      cases hc
    · rfl

private theorem paidOff_payment {info : MessageInfo} {k : U64} {b : PaymentBasis} {r : Reply}
    (hready : PaymentReady s info k b) :
    CallEvent.paidOff ⟨s, .execute info (.payInvoice k), .ok r, s'⟩ side address denom =
      if side.party b.invoice = address ∧ b.invoice.receivable.denom = denom then b.fund.amount.val else 0 := by
  simp [CallEvent.paidOff, hready.stored, hready.single]

/-- A part paid of an invoice is no longer owed, also when nothing is left to pay. -/
private theorem owing_credited {info : MessageInfo} {k : U64} {b : PaymentBasis} (hready : PaymentReady s info k b) :
    (b.invoice.credited b.total).owing denom + (if b.invoice.receivable.denom = denom then b.fund.amount.val else 0) =
      b.invoice.owing denom := by
  have htotal := hready.total
  have hwithin := (Word.le_iff _ _).mp hready.within
  by_cases hd : b.invoice.receivable.denom = denom
  · have hold : b.invoice.owing denom = b.invoice.receivable.amount.val - b.invoice.amountPaid.amount.val :=
      if_pos ⟨hready.unpaid, hd⟩
    rw [hold, if_pos hd]
    obtain ⟨ht, hst⟩ | ⟨_, hst⟩ := b.invoice.credited_status b.total
    · have hnew : (b.invoice.credited b.total).owing denom = 0 := if_neg fun hx => hx.1 hst
      rw [ht] at htotal
      omega
    · have hnew : (b.invoice.credited b.total).owing denom = b.invoice.receivable.amount.val - b.total.val :=
        if_pos ⟨fun hp => (nomatch hst.symm.trans hp), hd⟩
      omega
  · have hold : b.invoice.owing denom = 0 := if_neg fun hx => hd hx.2
    have hnew : (b.invoice.credited b.total).owing denom = 0 := if_neg fun hx => hd hx.2
    rw [hold, hnew, if_neg hd]

private theorem owing_accepted {invoice : Invoice} (hr : invoice.status = .raised) :
    Invoice.owing denom { invoice with status := .accepted } = invoice.owing denom := by
  simp [Invoice.owing, hr]

/-- What one returning call does to the sums: it adds what it invoices and takes off what it pays. -/
private theorem outstanding_step (side : Side) (address : Addr) (denom : String) {c : Call} {r : Reply}
    (hfresh : ∀ id : U64, id.val = (s.invoiceId.getD 0).val + 1 → id ∉ s.invoice) (he : Effect env s c r s') :
    s'.outstanding side.party address denom + CallEvent.paidOff ⟨s, c, .ok r, s'⟩ side address denom =
      s.outstanding side.party address denom + CallEvent.invoiced ⟨s, c, .ok r, s'⟩ side address denom := by
  have hmove := he.invoiceMove
  generalize hm : s'.invoice = m at hmove
  cases hmove with
  | keep hc _ =>
    obtain ⟨hinvoiced, hpaid⟩ := uncounted_of_keeps s s' side address denom r hc
    rw [hinvoiced, hpaid, Storage.outstanding, hm, Storage.outstanding]
  | @raise info terms b hready =>
    rw [outstanding_raised side.party (hfresh _ hready.id) hm, side.party_raised info]
    rfl
  | @accept info k invoice hready =>
    have hstep := tally_update hready.stored { invoice with status := .accepted } fun invoice =>
      if side.party invoice = address then invoice.owing denom else 0
    rw [side.party_of_sameTerms (.accepted invoice), owing_accepted hready.raised] at hstep
    rw [Storage.outstanding, hm]
    exact Nat.add_right_cancel hstep
  | @credit info k b hready =>
    have hstep := tally_update hready.stored (b.invoice.credited b.total) fun invoice =>
      if side.party invoice = address then invoice.owing denom else 0
    rw [side.party_of_sameTerms (.credited b.invoice b.total), ← owing_credited hready] at hstep
    rw [Storage.outstanding, hm, paidOff_payment hready]
    change _ = s.outstanding side.party address denom + 0
    rw [Storage.outstanding]
    by_cases hp : side.party b.invoice = address
    · simp only [hp, if_true, true_and] at hstep ⊢
      omega
    · simp only [hp, if_false, false_and] at hstep ⊢
      omega

end Steps

section Laws
variable {env : Env} {h : History} {s : Storage}

/-- What the invoices of an account leave to pay is what was invoiced, less what was paid of it. -/
private theorem outstanding_history (hr : Run (rwa env) h s) (side : Side) (address : Addr) (denom : String) :
    s.outstanding side.party address denom + h.paidOff side address denom = h.invoiced side address denom := by
  refine rwa_rule (I := fun h s => s.outstanding side.party address denom + h.paidOff side address denom =
    h.invoiced side address denom) ?_ ?_ ?_ hr
  · intro info
    rfl
  · intro h s c r s' hr hi _ he
    have hstep := outstanding_step side address denom (next_id_fresh hr) he
    rw [paidOff_append, invoiced_append]
    omega
  · intro h s c f _ hi _ _
    rw [paidOff_append, invoiced_append, uncounted_of_error.1, uncounted_of_error.2]
    exact hi

private theorem getTotal_outstanding (hr : Run (rwa env) h s) (side : Side) {address : Addr} {totals : List Coin}
    (hgives : (side.getTotal address).Gives s totals) (denom : String) :
    Coin.total denom totals = s.outstanding side.party address denom := by
  obtain ⟨count, hi⟩ := indexed hr
  have hle := paid_within hr
  cases side with
  | creditor =>
    have hreg := hi.generated address
    obtain ⟨totals', hgives', _, hsum⟩ := accountTotals_gives hle hreg ((accountTotals_iff hle hreg).mp ⟨_, hgives⟩)
    rw [hgives.unique hgives']
    exact hsum denom
  | payee =>
    have hreg := hi.assigned address
    obtain ⟨totals', hgives', _, hsum⟩ := accountTotals_gives hle hreg ((accountTotals_iff hle hreg).mp ⟨_, hgives⟩)
    rw [hgives.unique hgives']
    exact hsum denom

/-- Whenever an account is told its receivables or its payables, they are in each denomination what the calls
of the run have invoiced, less what they have paid of it. -/
theorem totals_tell_history (hr : Run (rwa env) h s) (side : Side) (address : Addr) (totals : List Coin)
    (hgives : (side.getTotal address).Gives s totals) (denom : String) :
    Coin.total denom totals + h.paidOff side address denom = h.invoiced side address denom := by
  rw [getTotal_outstanding hr side hgives]
  exact outstanding_history hr side address denom

end Laws

/-- Forty of the hundred dollars that Alice is owed have been paid. -/
theorem totals_tell_history_of_begun :
    Coin.total "uusd" [⟨"uusd", 60⟩] + (Sample.history Sample.begun).paidOff .creditor Sample.alice "uusd" =
      (Sample.history Sample.begun).invoiced .creditor Sample.alice "uusd" :=
  totals_tell_history (Sample.run Sample.begun (by decide)) .creditor Sample.alice [⟨"uusd", 60⟩] rfl "uusd"

end ComdexRwa.Core
