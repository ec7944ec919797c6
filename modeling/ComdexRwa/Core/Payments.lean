import ComdexRwa.Core.InvoiceLife

/-! What the calls of a run take in coins and what they send on.
First the payments of each invoice against its record, then all coins against the contract's balance. -/
namespace ComdexRwa.Core
open Foundation

/-! The payments of one invoice. -/

/-- A call that returned from paying the invoice `k`. -/
private def CallEvent.pays (e : CallEvent) (k : U64) : Prop :=
  ∃ info r, e.call = .execute info (.payInvoice k) ∧ e.reply = .ok r

/-- How much an event has forwarded to `creditor` in one denomination as payment of the invoice `k`. -/
def CallEvent.forwarded (e : CallEvent) (k : U64) (creditor : Addr) (denom : String) : Nat :=
  match e.call, e.reply with
  | .execute _ (.payInvoice invoiceId), .ok r => if invoiceId = k then Coin.total denom (r.sentTo creditor) else 0
  | _, _ => 0

def History.forwarded (h : History) (k : U64) (creditor : Addr) (denom : String) : Nat :=
  (h.map fun e => e.forwarded k creditor denom).sum

/-- The record of one invoice against the payments of a history. -/
structure Entry (h : History) (k : U64) (invoice : Invoice) : Prop where
  credited : invoice.amountPaid.amount.val = h.forwarded k invoice.from invoice.receivable.denom
  pure : ∀ e ∈ h, ∀ info r, e.call = .execute info (.payInvoice k) → e.reply = .ok r →
    (∀ coin ∈ info.funds, coin.denom = invoice.receivable.denom) ∧
      ∀ coin ∈ r.sentCoins, coin.denom = invoice.receivable.denom
  received : invoice.status = .paid →
    h.forwarded k invoice.from invoice.receivable.denom = invoice.receivable.amount.val

/-- Every stored invoice shows what the successful payments have forwarded to its creditor. -/
def PaymentLedger (h : History) (s : Storage) : Prop :=
  ∀ k invoice, s.invoice.lookup k = some invoice → Entry h k invoice

/-- A payment that returns, in another denomination than the invoice's own. -/
def mismatched (s : Storage) (c : Call) : Prop :=
  ∃ info k b, c = .execute info (.payInvoice k) ∧ PaymentReady s info k b ∧
    b.fund.denom ≠ b.invoice.receivable.denom

section Entries
variable {h : History} {e : CallEvent} {k : U64} {invoice old : Invoice}

private theorem forwarded_append (h : History) (e : CallEvent) (k : U64) (creditor : Addr) (denom : String) :
    History.forwarded (h ++ [e]) k creditor denom =
      h.forwarded k creditor denom + e.forwarded k creditor denom := by
  simp [History.forwarded]

private theorem forwarded_of_not_pays (hno : ¬ e.pays k) (creditor : Addr) (denom : String) :
    e.forwarded k creditor denom = 0 := by
  unfold CallEvent.forwarded
  split
  · rename_i hc hr
    rw [if_neg]
    rintro rfl
    exact hno ⟨_, _, hc, hr⟩
  · rfl

/-- An event that pays nothing of an invoice is not seen in its entry. -/
private theorem entry_append_of_not_pays (hno : ¬ e.pays k) : Entry (h ++ [e]) k invoice ↔ Entry h k invoice := by
  have hsum (creditor : Addr) (denom : String) :
      History.forwarded (h ++ [e]) k creditor denom = h.forwarded k creditor denom := by
    rw [forwarded_append, forwarded_of_not_pays hno, Nat.add_zero]
  constructor
  · intro hn
    refine ⟨?_, fun x hx => hn.pure x (List.mem_append_left _ hx), ?_⟩
    · rw [hn.credited, hsum]
    · intro hp
      rw [← hn.received hp, hsum]
  · intro hn
    refine ⟨?_, fun x hx info r hc hok => ?_, ?_⟩
    · rw [hn.credited, hsum]
    · rcases List.mem_append.mp hx with hx | hx
      · exact hn.pure x hx info r hc hok
      · rw [List.mem_singleton] at hx
        subst hx
        exact (hno ⟨info, r, hc, hok⟩).elim
    · intro hp
      rw [hsum, hn.received hp]

/-- An event that pays of one invoice is not seen in the entries of the others. -/
private theorem entries_append_elsewhere {m : Finmap fun _ : U64 => Invoice} (hother : ∀ j, j ≠ k → ¬ e.pays j) :
    (∀ j invoice, j ≠ k → m.lookup j = some invoice → Entry (h ++ [e]) j invoice) ↔
      ∀ j invoice, j ≠ k → m.lookup j = some invoice → Entry h j invoice :=
  forall₃_congr fun j _ hj => imp_congr_right fun _ => entry_append_of_not_pays (hother j hj)

/-- Acceptance changes nothing that an entry looks at. -/
private theorem entry_accepted_iff (hs : invoice.status = .raised) :
    Entry h k { invoice with status := .accepted } ↔ Entry h k invoice := by
  constructor
  · exact fun hn => ⟨hn.credited, hn.pure, fun hp => by cases hs.symm.trans hp⟩
  · exact fun hn => ⟨hn.credited, hn.pure, fun hp => by cases hp⟩

/-- A new invoice has an entry, since nothing has been paid of it. -/
private theorem entry_raised (hno : ∀ e ∈ h, ¬ CallEvent.pays e k) (terms : InvoiceTerms) (sender : Addr) (id : U64) :
    Entry h k (terms.raised sender id) := by
  have hsum : h.forwarded k sender terms.receivable.denom = 0 := by
    rw [History.forwarded, List.sum_eq_zero]
    intro n hn
    obtain ⟨e, he, rfl⟩ := List.mem_map.mp hn
    exact forwarded_of_not_pays (hno e he) _ _
  refine ⟨?_, fun e he info r hc hok => (hno e he ⟨info, r, hc, hok⟩).elim, fun hp => (nomatch hp)⟩
  exact Word.val_zero.trans hsum.symm

theorem forwarded_payInvoice {s s' : Storage} {info : MessageInfo} {b : PaymentBasis} (denom : String) :
    CallEvent.forwarded ⟨s, .execute info (.payInvoice k), .ok (payInvoiceReply k b), s'⟩ k b.invoice.from denom =
      if b.fund.denom = denom then b.fund.amount.val else 0 := by
  rw [← Coin.total_singleton]
  simp [CallEvent.forwarded, Response.sentTo]

/-- Of a payment that returns, being mismatched is a matter of its one coin. -/
private theorem mismatched_payment_iff {s : Storage} {info : MessageInfo} {b : PaymentBasis}
    (hready : PaymentReady s info k b) :
    mismatched s (.execute info (.payInvoice k)) ↔ b.fund.denom ≠ b.invoice.receivable.denom := by
  constructor
  · rintro ⟨_, _, b', hc, hready', hne⟩
    cases hc
    rw [hready.unique hready']
    exact hne
  · exact fun hne => ⟨info, k, b, rfl, hready, hne⟩

/-- A payment continues an entry exactly when it is made in the denomination of the invoice. -/
private theorem entry_credited_iff {s s' : Storage} {info : MessageInfo} {b : PaymentBasis}
    (hready : PaymentReady s info k b) :
    Entry (h ++ [⟨s, .execute info (.payInvoice k), .ok (payInvoiceReply k b), s'⟩]) k
        (b.invoice.credited b.total) ↔
      Entry h k b.invoice ∧ b.fund.denom = b.invoice.receivable.denom := by
  have htotal := hready.total
  have hsum : History.forwarded (h ++ [⟨s, .execute info (.payInvoice k), .ok (payInvoiceReply k b), s'⟩]) k
      b.invoice.from b.invoice.receivable.denom =
        h.forwarded k b.invoice.from b.invoice.receivable.denom +
          if b.fund.denom = b.invoice.receivable.denom then b.fund.amount.val else 0 := by
    rw [forwarded_append, forwarded_payInvoice]
  constructor
  · intro hn
    have hdenom : b.fund.denom = b.invoice.receivable.denom := by
      have hp := (hn.pure _ (List.mem_append_right _ (List.mem_singleton_self _)) info _ rfl rfl).1
      exact hp b.fund (by simp [hready.single])
    have hcredited : b.total.val = _ := hn.credited.trans hsum
    rw [if_pos hdenom] at hcredited
    refine ⟨⟨?_, fun x hx => hn.pure x (List.mem_append_left _ hx), fun hp => (hready.unpaid hp).elim⟩, hdenom⟩
    omega
  · intro hx
    obtain ⟨hn, hdenom⟩ := hx
    have hcredited := hn.credited
    rw [if_pos hdenom] at hsum
    refine ⟨?_, fun x hx i r hc hok => ?_, fun hp => ?_⟩
    · change b.total.val = History.forwarded _ _ _ _
      rw [show (b.invoice.credited b.total).receivable.denom = b.invoice.receivable.denom from rfl,
        show (b.invoice.credited b.total).from = b.invoice.from from rfl, hsum]
      omega
    · rcases List.mem_append.mp hx with hx | hx
      · exact hn.pure x hx i r hc hok
      · rw [List.mem_singleton] at hx
        subst hx
        cases hc
        cases hok
        refine ⟨fun coin hcoin => ?_, fun coin hcoin => ?_⟩
        · rw [hready.single, List.mem_singleton] at hcoin
          rw [hcoin]
          exact hdenom
        · rw [Response.sentCoins, sends_payInvoiceReply] at hcoin
          have hcoin : coin = b.fund := by simpa using hcoin
          rw [hcoin]
          exact hdenom
    · have hfull := (Invoice.credited_paid_iff _ _).mp hp
      change History.forwarded _ _ b.invoice.from b.invoice.receivable.denom = b.invoice.receivable.amount.val
      rw [hsum, ← hfull]
      omega

end Entries

section Laws
variable {env : Env} {h : History} {s : Storage}

private theorem stored_of_pays (hr : Run (rwa env) h s) {e : CallEvent} (he : e ∈ h) {k : U64} (hp : e.pays k) :
    k ∈ s.invoice := by
  obtain ⟨info, r, hc, hok⟩ := hp
  have heff := effect_of_reply hr he hok
  rw [hc] at heff
  generalize hs : e.after = s' at heff
  cases heff with
  | payInvoice hready =>
    obtain ⟨invoice, hk⟩ : ∃ invoice, e.after.invoice.lookup k = some invoice := by
      rw [hs]
      exact ⟨_, Finmap.lookup_insert _⟩
    obtain ⟨new, hnew, _⟩ := invoice_persists hr e he k invoice hk
    exact Finmap.mem_of_lookup_eq_some hnew

/-- A call that returns continues the ledger exactly when it is no mismatched payment. -/
private theorem paymentLedger_append_iff (hr : Run (rwa env) h s) {c : Call} {r : Reply} {s' : Storage}
    (he : Effect env s c r s') :
    PaymentLedger (h ++ [⟨s, c, .ok r, s'⟩]) s' ↔ PaymentLedger h s ∧ ¬ mismatched s c := by
  have hquiet (hc : ∀ info k, c ≠ .execute info (.payInvoice k)) :
      ¬ mismatched s c ∧ ∀ k invoice, Entry (h ++ [⟨s, c, .ok r, s'⟩]) k invoice ↔ Entry h k invoice := by
    refine ⟨?_, fun k invoice => entry_append_of_not_pays ?_⟩
    · intro hx
      obtain ⟨info, k, b, hp, _⟩ := hx
      exact hc info k hp
    · intro hx
      obtain ⟨info, r', hp, _⟩ := hx
      exact hc info k hp
  have hmove := he.invoiceMove
  unfold PaymentLedger
  generalize s'.invoice = m at hmove ⊢
  cases hmove with
  | keep hw _ =>
    obtain ⟨hmis, hentry⟩ := hquiet fun info k hc => by
      subst hc
      cases hw
    simp only [hentry, hmis, not_false_eq_true, and_true]
  | @raise info terms b hready =>
    obtain ⟨hmis, hentry⟩ := hquiet fun _ _ hc => (nomatch hc)
    have hfresh := next_id_fresh hr b.id hready.id
    have hnew : Entry h b.id (terms.raised info.sender b.id) :=
      entry_raised (fun e he hp => hfresh (stored_of_pays hr he hp)) terms info.sender b.id
    rw [forall_lookup_insert, forall_lookup_of_none (k := b.id) hfresh]
    simp only [hentry, hmis, hnew, true_and, not_false_eq_true, and_true]
  | @accept info invoiceId invoice hready =>
    obtain ⟨hmis, hentry⟩ := hquiet fun _ _ hc => (nomatch hc)
    rw [forall_lookup_insert, forall_lookup_of_some (k := invoiceId) hready.stored]
    simp only [hentry, hmis, entry_accepted_iff hready.raised, not_false_eq_true, and_true]
  | @credit info invoiceId b hready =>
    have hother (j : U64) (hj : j ≠ invoiceId) : ¬ CallEvent.pays
        ⟨s, .execute info (.payInvoice invoiceId), .ok (payInvoiceReply invoiceId b), s'⟩ j := by
      intro hx
      obtain ⟨_, _, hc, _⟩ := hx
      cases hc
      exact hj rfl
    rw [forall_lookup_insert, forall_lookup_of_some (k := invoiceId) hready.stored,
      entries_append_elsewhere hother, entry_credited_iff hready, mismatched_payment_iff hready, not_not,
      and_right_comm]

/-- The payment ledger is right after a run exactly when every payment of the run was made in the
denomination of its invoice. -/
theorem payment_ledger_iff (hr : Run (rwa env) h s) :
    PaymentLedger h s ↔ ∀ e ∈ h, ¬ mismatched e.before e.call := by
  refine rwa_exactly (I := PaymentLedger) (G := fun s c => ¬ mismatched s c) ?_ ?_ ?_ hr
  · intro info
    constructor
    · intro _ hx
      obtain ⟨_, _, _, hc, _⟩ := hx
      cases hc
    · intro _ k invoice hk
      cases hk
  · intro h s c r s' hr _ he
    exact paymentLedger_append_iff hr he
  · intro h s c e _ _ hfail
    have hmis : ¬ mismatched s c := by
      intro hx
      obtain ⟨info, k, b, rfl, hready, _⟩ := hx
      exact hfail _ _ (.payInvoice hready)
    have hentry (k : U64) (invoice : Invoice) :
        Entry (h ++ [⟨s, c, .error e, s⟩]) k invoice ↔ Entry h k invoice := by
      apply entry_append_of_not_pays
      intro hx
      obtain ⟨_, _, _, hok⟩ := hx
      cases hok
    unfold PaymentLedger
    simp only [hentry, hmis, not_false_eq_true, and_true]

theorem payment_ledger_iff_of_settled :
    PaymentLedger (Sample.history Sample.settled) (Sample.storage Sample.settled) ↔
      ∀ e ∈ Sample.history Sample.settled, ¬ mismatched e.before e.call :=
  payment_ledger_iff (Sample.run Sample.settled (by decide))

/-- Ten euros, an accepted asset, are paid on the invoice of a hundred dollars. -/
def Sample.mismatched : List Call := Sample.invoiced ++ [Sample.pay "ueur" 10]

/-- Ten of the dollars are counted as paid, and no dollar has been sent. -/
theorem mismatched_credited :
    Run (rwa Sample.env) (Sample.history Sample.mismatched) (Sample.storage Sample.mismatched) ∧
    ((Sample.storage Sample.mismatched).invoice.lookup Sample.invoiceId).map
        (fun invoice => (invoice.amountPaid, invoice.from, invoice.receivable)) =
      some (⟨"uusd", 10⟩, Sample.alice, ⟨"uusd", 100⟩) ∧
    ¬ PaymentLedger (Sample.history Sample.mismatched) (Sample.storage Sample.mismatched) := by
  have hview : ((Sample.storage Sample.mismatched).invoice.lookup Sample.invoiceId).map
      (fun invoice => (invoice.amountPaid, invoice.from, invoice.receivable)) =
        some (⟨"uusd", 10⟩, Sample.alice, ⟨"uusd", 100⟩) := by decide
  refine ⟨Sample.run Sample.mismatched (by decide), hview, ?_⟩
  intro hledger
  obtain ⟨invoice, hk, hfields⟩ := Option.map_eq_some_iff.mp hview
  have hcredited := (hledger _ invoice hk).credited
  simp only [Prod.mk.injEq] at hfields
  rw [hfields.1, hfields.2.1, hfields.2.2] at hcredited
  exact absurd hcredited (by decide)

end Laws

/-! All coins attached to calls. -/

/-- The coins that a call which returned brought along, and those it sent out. -/
def CallEvent.takenIn (e : CallEvent) : List Coin :=
  match e.reply with
  | .ok _ => e.call.funds
  | .error _ => []

def CallEvent.sentOut (e : CallEvent) : List Coin :=
  match e.reply with
  | .ok r => r.sentCoins
  | .error _ => []

/-- A call that returns sends out what it brought: a payment its one coin, to the creditor of the
invoice; any other call nothing, and it brought nothing. -/
structure Accounted (e : CallEvent) : Prop where
  balanced : e.sentOut = e.takenIn
  payment : ∀ info k r, e.call = .execute info (.payInvoice k) → e.reply = .ok r →
    ∃ invoice fund, e.before.invoice.lookup k = some invoice ∧ info.funds = [fund] ∧
      r.sends = [(invoice.from.text, [fund])]
  other : ∀ r, (∀ info k, e.call ≠ .execute info (.payInvoice k)) → e.reply = .ok r → e.call.funds = []

/-- Nothing stays behind: every call is accounted for, and the contract's balance is back at zero. -/
structure NothingTrapped (h : History) : Prop where
  accounted : ∀ e ∈ h, Accounted e
  balance : ∀ denom, (h.map fun e => Coin.total denom e.takenIn).sum =
    (h.map fun e => Coin.total denom e.sentOut).sum

/-- A call that returns with coins attached though its handler never looks at them. -/
def strands (s : Storage) : Call → Prop
  | .instantiate info => info.funds ≠ []
  | .execute info (.createRequest address) => info.funds ≠ [] ∧ ∃ c d, RequestReady s info address c d
  | .execute info (.acceptInvoice k) => info.funds ≠ [] ∧ ∃ invoice, AcceptanceReady s info k invoice
  | .execute info (.setConfig ..) => info.funds ≠ []
  | _ => False

section Funds
variable {env : Env} {h : History} {s s' : Storage} {c : Call} {r : Reply}

/-- Every call but a payment is accounted for exactly when it brings no coins. -/
private theorem accounted_iff_of_quiet (hm : r.sends = []) (hc : ∀ info k, c ≠ .execute info (.payInvoice k)) :
    Accounted ⟨s, c, .ok r, s'⟩ ↔ c.funds = [] := by
  constructor
  · exact fun ha => ha.other r hc rfl
  · intro hf
    refine ⟨?_, fun info k _ hp => (hc info k hp).elim, fun _ _ _ => hf⟩
    change r.sentCoins = c.funds
    rw [hf, Response.sentCoins, hm]
    rfl

private theorem accounted_payment {info : MessageInfo} {k : U64} {b : PaymentBasis}
    (hready : PaymentReady s info k b) :
    Accounted ⟨s, .execute info (.payInvoice k), .ok (payInvoiceReply k b), s'⟩ := by
  refine ⟨?_, ?_, fun _ hno _ => (hno info k rfl).elim⟩
  · change (payInvoiceReply k b).sentCoins = info.funds
    rw [Response.sentCoins, sends_payInvoiceReply, hready.single]
    rfl
  · intro _ _ _ hc hok
    cases hc
    cases hok
    exact ⟨b.invoice, b.fund, hready.stored, hready.single, sends_payInvoiceReply k b⟩

/-- A call that returns is accounted for exactly when it does not strand its coins. -/
private theorem accounted_iff (he : Effect env s c r s') : Accounted ⟨s, c, .ok r, s'⟩ ↔ ¬ strands s c := by
  have hquiet (hm : r.sends = []) (hc : ∀ info k, c ≠ .execute info (.payInvoice k))
      (hs : strands s c ↔ c.funds ≠ []) : Accounted ⟨s, c, .ok r, s'⟩ ↔ ¬ strands s c := by
    rw [accounted_iff_of_quiet hm hc, hs, not_not]
  cases he with
  | instantiate info => exact hquiet rfl (fun _ _ hc => (nomatch hc)) Iff.rfl
  | createRequest hready =>
    exact hquiet rfl (fun _ _ hc => (nomatch hc)) (and_iff_left ⟨_, _, hready⟩)
  | acceptRequest hready =>
    exact hquiet rfl (fun _ _ hc => (nomatch hc)) ⟨False.elim, fun hf => hf hready.noFunds⟩
  | createProfile hf _ =>
    exact hquiet rfl (fun _ _ hc => (nomatch hc)) ⟨False.elim, fun hne => hne hf⟩
  | createInvoice hready =>
    exact hquiet rfl (fun _ _ hc => (nomatch hc)) ⟨False.elim, fun hf => hf hready.noFunds⟩
  | setConfig => exact hquiet rfl (fun _ _ hc => (nomatch hc)) Iff.rfl
  | acceptInvoice hready =>
    exact hquiet rfl (fun _ _ hc => (nomatch hc)) (and_iff_left ⟨_, hready⟩)
  | payInvoice hready => exact ⟨fun _ hs => hs, fun _ => accounted_payment hready⟩
  | migrate => exact hquiet rfl (fun _ _ hc => (nomatch hc)) ⟨False.elim, fun hf => hf rfl⟩

/-- A call that strands its coins is one that returns. -/
private theorem effect_of_strands (hs : strands s c) (hc : c.opens = false) : ∃ r s', Effect env s c r s' := by
  unfold strands at hs
  split at hs
  · cases hc
  · obtain ⟨_, c, d, hready⟩ := hs
    exact ⟨_, _, .createRequest hready⟩
  · obtain ⟨_, invoice, hready⟩ := hs
    exact ⟨_, _, .acceptInvoice hready⟩
  · exact ⟨_, _, .setConfig _ _ _ _⟩
  · exact hs.elim

/-- A call without a result took nothing in. -/
private theorem accounted_failed (e : Abort ContractError) : Accounted ⟨s, c, .error e, s⟩ :=
  ⟨rfl, fun _ _ _ _ hok => (nomatch hok), fun _ _ hok => (nomatch hok)⟩

private theorem accounted_all_iff (hr : Run (rwa env) h s) :
    (∀ e ∈ h, Accounted e) ↔ ∀ e ∈ h, ¬ strands e.before e.call := by
  refine rwa_throughout (L := fun _ => True) (fun _ _ => trivial) ?_ ?_ ?_ ?_ hr
  · exact fun s c hc hs => effect_of_strands hs hc
  · exact fun info => accounted_iff (Effect.opening env info)
  · exact fun h s c r s' _ _ he => accounted_iff he
  · exact fun s c e _ => accounted_failed e

/-- Nothing is trapped along a run exactly when no coins are attached where no handler looks. -/
theorem nothing_trapped_iff (hr : Run (rwa env) h s) :
    NothingTrapped h ↔ ∀ e ∈ h, ¬ strands e.before e.call := by
  rw [← accounted_all_iff hr]
  refine ⟨fun hn => hn.accounted, fun ha => ⟨ha, fun denom => ?_⟩⟩
  congr 1
  apply List.map_congr_left
  intro e he
  rw [(ha e he).balanced]

theorem nothing_trapped_iff_of_settled :
    NothingTrapped (Sample.history Sample.settled) ↔
      ∀ e ∈ Sample.history Sample.settled, ¬ strands e.before e.call :=
  nothing_trapped_iff (Sample.run Sample.settled (by decide))

/-- Alice attaches five dollars to her contact request. -/
def Sample.trapped : List Call :=
  Sample.profiles ++ [.execute ⟨Sample.alice, [⟨"uusd", 5⟩]⟩ (.createRequest Sample.bob)]

/-- The request goes through, and the five dollars stay with the contract. -/
theorem request_traps_funds :
    Run (rwa Sample.env) (Sample.history Sample.trapped) (Sample.storage Sample.trapped) ∧
    ¬ NothingTrapped (Sample.history Sample.trapped) := by
  refine ⟨Sample.run Sample.trapped (by decide), fun hn => ?_⟩
  exact absurd (hn.balance "uusd") (by decide)

end Funds
end ComdexRwa.Core
