import ComdexRwa.Core.Payments
import ComdexRwa.Core.Tokens

/-! Paying an invoice in parts, against paying it at once. What the calls leave depends on the sum
of the parts alone, as long as they all go through, and they do unless the sum is more than is left. -/
namespace ComdexRwa.Core
open Foundation

/-- A payment by the payee of an invoice, with one coin of the invoice's own denomination. -/
def Invoice.payment (invoice : Invoice) (k : U64) (amount : Uint128) : Call :=
  .execute ⟨invoice.payeeAddress, [⟨invoice.receivable.denom, amount⟩]⟩ (.payInvoice k)

/-- An invoice that is open to payment: accepted, not paid yet, in a denomination that is listed. -/
structure Payable (s : Storage) (k : U64) (config : Config) (invoice : Invoice) : Prop where
  stored : s.invoice.lookup k = some invoice
  configured : s.config = some config
  listed : config.accepts invoice.receivable.denom = true
  running : invoice.status = .accepted ∨ invoice.status = .partiallyPaid

/-- The storage once `total` has been paid of an invoice in all. -/
private def Storage.paidUp (s : Storage) (k : U64) (invoice : Invoice) (total : Uint128) : Storage :=
  { s with invoice := s.invoice.insert k (invoice.credited total) }

/-- The calls that pay the amounts one after the other, and the storage they end in. -/
def Invoice.payments (env : Env) (s : Storage) (k : U64) (invoice : Invoice) (amounts : List Uint128) :
    History × Storage :=
  (rwa env).replay s (amounts.map (invoice.payment k))

def History.Succeeds (h : History) : Prop := ∀ e ∈ h, ∃ r, e.reply = .ok r

/-- The messages of a history to token contracts, with their addressees. -/
def History.tokenMsgs (h : History) : List (String × NftMsg Metadata) := h.flatMap CallEvent.tokenMsgs

def sumOf (amounts : List Uint128) : Nat := (amounts.map Word.val).sum

@[simp] private theorem sumOf_cons (x : Uint128) (xs : List Uint128) : sumOf (x :: xs) = x.val + sumOf xs := rfl

private theorem sumOf_pos {xs : List Uint128} (hne : xs ≠ []) (hpos : ∀ x ∈ xs, 0 < x) : 0 < sumOf xs := by
  cases xs with
  | nil => exact (hne rfl).elim
  | cons x rest =>
    have hx := hpos x List.mem_cons_self
    rw [Word.lt_iff, Word.val_zero] at hx
    exact Nat.add_pos_left hx _

section Payments
variable {env : Env} {s : Storage} {k : U64} {config : Config} {invoice : Invoice} {amount total : Uint128}

/-- Only the last total counts. -/
private theorem Storage.paidUp_paidUp (s : Storage) (k : U64) (invoice : Invoice) (first total : Uint128) :
    (s.paidUp k invoice first).paidUp k (invoice.credited first) total = s.paidUp k invoice total := by
  simp only [Storage.paidUp, Finmap.insert_insert]
  rfl

theorem Payable.ready (hp : Payable s k config invoice)
    (htotal : total.val = invoice.amountPaid.amount.val + amount.val) (hle : total ≤ invoice.receivable.amount) :
    PaymentReady s ⟨invoice.payeeAddress, [⟨invoice.receivable.denom, amount⟩]⟩ k
      ⟨⟨invoice.receivable.denom, amount⟩, config, invoice, total⟩ where
  single := rfl
  configured := hp.configured
  listed := hp.listed
  stored := hp.stored
  payee := rfl
  accepted := by rcases hp.running with hst | hst <;> rw [hst] <;> decide
  unpaid := by rcases hp.running with hst | hst <;> rw [hst] <;> decide
  total := htotal
  within := hle

/-- A payment that stays within the receivable returns. -/
private theorem Payable.transact (hp : Payable s k config invoice)
    (htotal : total.val = invoice.amountPaid.amount.val + amount.val) (hle : total ≤ invoice.receivable.amount) :
    (rwa env).transact s (invoice.payment k amount) = ⟨s, invoice.payment k amount,
      .ok (payInvoiceReply k ⟨⟨invoice.receivable.denom, amount⟩, config, invoice, total⟩), s.paidUp k invoice total⟩ :=
  System.transact_of_returns ((dispatch_returns env _ _ _ _).mpr (.payInvoice (hp.ready htotal hle)))

/-- A payment that returns has stayed within the receivable. -/
private theorem paid_of_reply (hk : s.invoice.lookup k = some invoice) {r : Reply}
    (hok : ((rwa env).transact s (invoice.payment k amount)).reply = .ok r) :
    ∃ total : Uint128, total.val = invoice.amountPaid.amount.val + amount.val ∧ total ≤ invoice.receivable.amount ∧
      ((rwa env).transact s (invoice.payment k amount)).after = s.paidUp k invoice total := by
  rcases (rwa env).transact_cases s (invoice.payment k amount) with ⟨r', s', hret, he⟩ | ⟨f, _, he⟩
  · have heff : Effect env s (invoice.payment k amount) r' s' := (dispatch_returns env _ s r' s').mp hret
    rw [he]
    unfold Invoice.payment at heff
    cases heff with
    | @payInvoice _ _ b hready =>
      obtain ⟨fund, c, i, total⟩ := b
      cases hready.single
      have hi : i = invoice := Option.some.inj (hready.stored.symm.trans hk)
      subst hi
      exact ⟨total, hready.total, hready.within, rfl⟩
  · rw [he] at hok
    cases hok

/-- While something is left to pay, an invoice stays open to payment. -/
private theorem Payable.paidUp (hp : Payable s k config invoice) (hlt : total < invoice.receivable.amount) :
    Payable (s.paidUp k invoice total) k config (invoice.credited total) where
  stored := Finmap.lookup_insert _
  configured := hp.configured
  listed := hp.listed
  running := by
    rcases invoice.credited_status total with ⟨ht, _⟩ | ⟨_, hst⟩
    · exact (ne_of_lt hlt ht).elim
    · exact .inr hst

private theorem payments_cons (env : Env) (s : Storage) (k : U64) (invoice : Invoice) (x : Uint128)
    (xs : List Uint128) :
    invoice.payments env s k (x :: xs) =
      ((rwa env).transact s (invoice.payment k x) ::
          (invoice.payments env ((rwa env).transact s (invoice.payment k x)).after k xs).1,
        (invoice.payments env ((rwa env).transact s (invoice.payment k x)).after k xs).2) := rfl

/-- Payments that all go through come to no more than is left. -/
private theorem sum_le_of_succeeds {xs : List Uint128} (hk : s.invoice.lookup k = some invoice)
    (hs : History.Succeeds (invoice.payments env s k xs).1) :
    sumOf xs ≤ invoice.receivable.amount.val - invoice.amountPaid.amount.val := by
  induction xs generalizing s invoice with
  | nil => exact Nat.zero_le _
  | cons x rest ih =>
    rw [payments_cons] at hs
    obtain ⟨r, hr⟩ := hs _ List.mem_cons_self
    obtain ⟨total, htotal, hle, hafter⟩ := paid_of_reply hk hr
    rw [Word.le_iff] at hle
    have hk' : (s.paidUp k invoice total).invoice.lookup k = some (invoice.credited total) := Finmap.lookup_insert _
    have hrest := ih hk' fun e he => hs e (List.mem_cons_of_mem _ (hafter ▸ he))
    change sumOf rest ≤ invoice.receivable.amount.val - total.val at hrest
    rw [sumOf_cons]
    omega

/-- What payments leave that bring the total to `total`. -/
structure PaidTo (s : Storage) (k : U64) (config : Config) (invoice : Invoice) (total : Uint128) (paid : Nat)
    (out : History × Storage) : Prop where
  succeeds : out.1.Succeeds
  storage : out.2 = s.paidUp k invoice total
  forwarded : ∀ denom, out.1.forwarded k invoice.from denom = if invoice.receivable.denom = denom then paid else 0
  tokenMsgs : out.1.tokenMsgs = if total = invoice.receivable.amount then
    [(config.nftAddress.text, .transferNft invoice.from.text k.decimal)] else []

variable (env) in
private theorem Payable.pay_one (hp : Payable s k config invoice)
    (htotal : total.val = invoice.amountPaid.amount.val + amount.val) (hle : total ≤ invoice.receivable.amount) :
    PaidTo s k config invoice total amount.val (invoice.payments env s k [amount]) := by
  have hpays : invoice.payments env s k [amount] = ([⟨s, invoice.payment k amount,
      .ok (payInvoiceReply k ⟨⟨invoice.receivable.denom, amount⟩, config, invoice, total⟩), s.paidUp k invoice total⟩],
      s.paidUp k invoice total) := by
    rw [payments_cons, hp.transact htotal hle]
    rfl
  rw [hpays]
  refine ⟨fun e he => ?_, rfl, fun denom => ?_, ?_⟩
  · rw [List.mem_singleton.mp he]
    exact ⟨_, rfl⟩
  · rw [History.forwarded, List.map_singleton, List.sum_singleton]
    exact forwarded_payInvoice denom
  · simp [History.tokenMsgs, CallEvent.tokenMsgs]

/-- A part first, and then the rest. -/
private theorem PaidTo.cons {first : Uint128} {paid : Nat} {rest : List Uint128}
    (hone : PaidTo s k config invoice first amount.val (invoice.payments env s k [amount]))
    (hlt : first < invoice.receivable.amount)
    (hrest : PaidTo (s.paidUp k invoice first) k config (invoice.credited first) total paid
      ((invoice.credited first).payments env (s.paidUp k invoice first) k rest)) :
    PaidTo s k config invoice total (amount.val + paid) (invoice.payments env s k (amount :: rest)) := by
  have hafter : ((rwa env).transact s (invoice.payment k amount)).after = s.paidUp k invoice first := hone.storage
  have hpays : invoice.payments env s k (amount :: rest) =
      ((invoice.payments env s k [amount]).1 ++
          ((invoice.credited first).payments env (s.paidUp k invoice first) k rest).1,
        ((invoice.credited first).payments env (s.paidUp k invoice first) k rest).2) := by
    rw [payments_cons, hafter]
    rfl
  rw [hpays]
  refine ⟨fun e he => ?_, ?_, fun denom => ?_, ?_⟩
  · rcases List.mem_append.mp he with he | he
    · exact hone.succeeds e he
    · exact hrest.succeeds e he
  · rw [hrest.storage, Storage.paidUp_paidUp]
  · have hfirst := hone.forwarded denom
    have hothers := hrest.forwarded denom
    rw [History.forwarded] at hfirst hothers ⊢
    rw [List.map_append, List.sum_append, hfirst]
    refine (congrArg _ hothers).trans ?_
    change _ + (if invoice.receivable.denom = denom then paid else 0) = _
    split <;> rfl
  · have hnone := hone.tokenMsgs
    rw [if_neg (ne_of_lt hlt)] at hnone
    rw [History.tokenMsgs] at hnone ⊢
    rw [List.flatMap_append, hnone]
    exact hrest.tokenMsgs

variable (env) in
/-- Payments whose sum is within what is left all go through, and leave what their sum makes. -/
private theorem Payable.pay_all {xs : List Uint128} (hp : Payable s k config invoice) (hne : xs ≠ [])
    (hpos : ∀ x ∈ xs, 0 < x) (htotal : total.val = invoice.amountPaid.amount.val + sumOf xs)
    (hle : total ≤ invoice.receivable.amount) :
    PaidTo s k config invoice total (sumOf xs) (invoice.payments env s k xs) := by
  induction xs generalizing s invoice with
  | nil => exact (hne rfl).elim
  | cons x rest ih =>
    cases rest with
    | nil => exact hp.pay_one env htotal hle
    | cons y rest =>
      have hmore : 0 < sumOf (y :: rest) :=
        sumOf_pos (List.cons_ne_nil _ _) fun z hz => hpos z (List.mem_cons_of_mem _ hz)
      have hsum := sumOf_cons x (y :: rest)
      have hle' := (Word.le_iff _ _).mp hle
      have hfits : invoice.amountPaid.amount.val + x.val < 2 ^ 128 := by
        have := invoice.receivable.amount.isLt
        omega
      have hlt : (⟨_, hfits⟩ : Uint128) < invoice.receivable.amount := by
        rw [Word.lt_iff]
        change invoice.amountPaid.amount.val + x.val < invoice.receivable.amount.val
        omega
      have hrest := ih (hp.paidUp hlt) (List.cons_ne_nil _ _) (fun z hz => hpos z (List.mem_cons_of_mem _ hz))
        (by rw [htotal, hsum, ← Nat.add_assoc]; rfl) hle
      exact .cons (hp.pay_one env rfl (le_of_lt hlt)) hlt hrest

variable (env) in
private theorem Payable.pay_within {xs : List Uint128} (hp : Payable s k config invoice) (hne : xs ≠ [])
    (hpos : ∀ x ∈ xs, 0 < x) (hsum : sumOf xs ≤ invoice.receivable.amount.val - invoice.amountPaid.amount.val) :
    ∃ total : Uint128, total.val = invoice.amountPaid.amount.val + sumOf xs ∧ total ≤ invoice.receivable.amount ∧
      PaidTo s k config invoice total (sumOf xs) (invoice.payments env s k xs) := by
  have hsome := sumOf_pos hne hpos
  have hle : invoice.amountPaid.amount.val + sumOf xs ≤ invoice.receivable.amount.val := by omega
  have htotal : invoice.amountPaid.amount.val + sumOf xs < 2 ^ 128 :=
    Nat.lt_of_le_of_lt hle invoice.receivable.amount.isLt
  exact ⟨⟨_, htotal⟩, rfl, hle, hp.pay_all env hne hpos rfl hle⟩

/-- The amounts, paid one after the other, go through exactly when their sum is within what is left,
and then leave what one payment of the sum would, in whatever order they are paid. -/
structure AddUp (env : Env) (s : Storage) (k : U64) (config : Config) (invoice : Invoice) (xs : List Uint128) :
    Prop where
  succeeds_iff : (invoice.payments env s k xs).1.Succeeds ↔
    sumOf xs ≤ invoice.receivable.amount.val - invoice.amountPaid.amount.val
  atOnce : (invoice.payments env s k xs).1.Succeeds → ∃ amount : Uint128, amount.val = sumOf xs ∧
    (invoice.payments env s k [amount]).1.Succeeds ∧
    (invoice.payments env s k xs).2 = (invoice.payments env s k [amount]).2
  forwarded : (invoice.payments env s k xs).1.Succeeds → ∀ denom,
    (invoice.payments env s k xs).1.forwarded k invoice.from denom =
      if invoice.receivable.denom = denom then sumOf xs else 0
  transferred : (invoice.payments env s k xs).1.Succeeds → (invoice.payments env s k xs).1.tokenMsgs =
    if sumOf xs = invoice.receivable.amount.val - invoice.amountPaid.amount.val then
      [(config.nftAddress.text, .transferNft invoice.from.text k.decimal)] else []
  order : ∀ ys : List Uint128, ys.Perm xs →
    ((invoice.payments env s k ys).1.Succeeds ↔ (invoice.payments env s k xs).1.Succeeds) ∧
    ((invoice.payments env s k xs).1.Succeeds →
      (invoice.payments env s k ys).2 = (invoice.payments env s k xs).2)

variable (env) in
private theorem Payable.succeeds_iff {xs : List Uint128} (hp : Payable s k config invoice) (hne : xs ≠ [])
    (hpos : ∀ x ∈ xs, 0 < x) : (invoice.payments env s k xs).1.Succeeds ↔
      sumOf xs ≤ invoice.receivable.amount.val - invoice.amountPaid.amount.val := by
  refine ⟨sum_le_of_succeeds hp.stored, fun hsum => ?_⟩
  obtain ⟨total, _, _, hpaid⟩ := hp.pay_within env hne hpos hsum
  exact hpaid.succeeds

/-- Instalments on an open invoice add up, on any storage. -/
theorem instalments_add_up {xs : List Uint128} (hp : Payable s k config invoice) (hne : xs ≠ [])
    (hpos : ∀ x ∈ xs, 0 < x) : AddUp env s k config invoice xs := by
  have hiff := hp.succeeds_iff env hne hpos
  refine ⟨hiff, fun hs => ?_, fun hs => ?_, fun hs => ?_, fun ys hperm => ?_⟩
  · obtain ⟨total, htotal, hle, hpaid⟩ := hp.pay_within env hne hpos (hiff.mp hs)
    have hfits : sumOf xs < 2 ^ 128 := by
      have := total.isLt
      omega
    have hsum : total.val = invoice.amountPaid.amount.val + (⟨sumOf xs, hfits⟩ : Uint128).val := htotal
    have hone := hp.pay_one env hsum hle
    exact ⟨_, rfl, hone.succeeds, hpaid.storage.trans hone.storage.symm⟩
  · obtain ⟨total, htotal, hle, hpaid⟩ := hp.pay_within env hne hpos (hiff.mp hs)
    exact hpaid.forwarded
  · obtain ⟨total, htotal, hle, hpaid⟩ := hp.pay_within env hne hpos (hiff.mp hs)
    have hsome := sumOf_pos hne hpos
    rw [hpaid.tokenMsgs]
    refine if_congr ?_ rfl rfl
    rw [Word.ext_iff]
    omega
  · have hsum : sumOf ys = sumOf xs := (hperm.map Word.val).sum_eq
    have hne' : ys ≠ [] := by
      rintro rfl
      exact hne hperm.symm.eq_nil
    have hpos' (y : Uint128) (hy : y ∈ ys) : 0 < y := hpos y (hperm.mem_iff.mp hy)
    have hiff' := hp.succeeds_iff env hne' hpos'
    refine ⟨by rw [hiff, hiff', hsum], fun hs => ?_⟩
    obtain ⟨total, htotal, _, hpaid⟩ := hp.pay_within env hne hpos (hiff.mp hs)
    obtain ⟨total', htotal', _, hpaid'⟩ := hp.pay_within env hne' hpos' (hsum ▸ hiff.mp hs)
    have heq : total' = total := Word.ext (by rw [htotal, htotal', hsum])
    rw [hpaid.storage, hpaid'.storage, heq]

end Payments

/-- The invoice of a hundred dollars is open to payment once it has been accepted. -/
private theorem Sample.payable : Payable (Sample.storage Sample.invoiced) Sample.invoiceId
    ⟨⟨"nft"⟩, Sample.owner, Sample.assets⟩
    { (Sample.terms 0).raised Sample.alice Sample.invoiceId with status := .accepted } :=
  ⟨rfl, rfl, rfl, .inl rfl⟩

theorem instalments_add_up_of_invoiced :
    Run (rwa Sample.env) (Sample.history Sample.invoiced) (Sample.storage Sample.invoiced) ∧
    AddUp Sample.env (Sample.storage Sample.invoiced) Sample.invoiceId ⟨⟨"nft"⟩, Sample.owner, Sample.assets⟩
      { (Sample.terms 0).raised Sample.alice Sample.invoiceId with status := .accepted } [30, 20, 50] :=
  ⟨Sample.run Sample.invoiced (by decide), instalments_add_up Sample.payable (by decide) (by decide)⟩

end ComdexRwa.Core
