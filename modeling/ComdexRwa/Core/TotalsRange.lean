import ComdexRwa.Core.Totals

/-! When the totals are answered. A total that leaves the range of amounts panics, and no guard relates
the amounts of different invoices: it is the creator of an invoice who decides whether they still fit. -/
namespace ComdexRwa.Core
open Foundation Query

/-- Every account gets both of its totals. -/
def TotalsAnswered (s : Storage) : Prop :=
  ∀ address, (∃ totals, (getTotalReceivables address).Gives s totals) ∧
    ∃ totals, (getTotalPayables address).Gives s totals

/-- An invoice that passes the guards, over so much that what is then left to pay to its creator, or
by its payee, is out of the range of amounts. -/
def overburdens (s : Storage) (c : Call) : Prop :=
  ∃ info terms b, c = .execute info (.createInvoice terms) ∧ InvoiceReady s info terms b ∧
    (2 ^ 128 ≤ s.outstanding Invoice.from info.sender terms.receivable.denom + terms.receivable.amount.val ∨
      2 ^ 128 ≤ s.outstanding Invoice.payeeAddress terms.payeeAddress terms.receivable.denom +
        terms.receivable.amount.val)

section Loops
variable {s : Storage} {ids : List U64} {index : ContactInfo → List U64} {party : Invoice → Addr}

/-- One coin a denomination holds no more than an amount can. -/
private theorem Coin.total_lt {coins : List Coin} (hdistinct : (coins.map Coin.denom).Nodup) (denom : String) :
    Coin.total denom coins < 2 ^ 128 := by
  by_cases hmem : denom ∈ coins.map Coin.denom
  · obtain ⟨coin, hcoin, rfl⟩ := List.mem_map.mp hmem
    rw [Coin.total_of_mem hdistinct hcoin]
    exact coin.amount.isLt
  · rw [Coin.total_eq_zero hmem]
    exact Nat.two_pow_pos 128

/-- The inner loop gives a result only where the total of the denomination stays in range. -/
private theorem raiseTotal_fits {invoice : Invoice} (hle : invoice.amountPaid.amount ≤ invoice.receivable.amount)
    {totals : List Coin} (hdistinct : (totals.map Coin.denom).Nodup) {out : Bool × List Coin}
    (hgives : (raiseTotal invoice totals).Gives s out) :
    Coin.total invoice.receivable.denom totals +
      (invoice.receivable.amount.val - invoice.amountPaid.amount.val) < 2 ^ 128 := by
  induction totals generalizing out with
  | nil =>
    rw [Coin.total_eq_zero List.not_mem_nil, Nat.zero_add]
    exact (invoice.receivable.amount.minus invoice.amountPaid.amount).isLt
  | cons coin rest ih =>
    rw [List.map_cons, List.nodup_cons] at hdistinct
    rw [Coin.total_cons]
    by_cases hd : coin.denom = invoice.receivable.denom
    · rw [raiseTotal, if_pos hd, gives_bind_of (remainder_gives hle)] at hgives
      obtain ⟨sum, hsum, _⟩ := (gives_bind _ _ s out).mp hgives
      have hsum := (Word.checkedAdd_eq_some _ _ _).mp ((gives_expect _ s sum).mp hsum)
      rw [Word.val_minus] at hsum
      rw [if_pos hd, Coin.total_eq_zero (hd ▸ hdistinct.1), Nat.add_zero, ← hsum]
      exact sum.isLt
    · rw [raiseTotal, if_neg hd] at hgives
      obtain ⟨found, hrest, _⟩ := (gives_bind _ _ s out).mp hgives
      rw [if_neg hd, Nat.zero_add]
      exact ih hdistinct.2 hrest

/-- One round that gives a result adds what the invoice leaves to pay. -/
private theorem TotalledInvoices.round {totals totals' : List Coin} {k : U64} (h : TotalledInvoices s ids totals)
    (hle : ∀ j i, s.invoice.lookup j = some i → i.amountPaid.amount ≤ i.receivable.amount)
    (hgives : (totalInvoice totals k).Gives s totals') : TotalledInvoices s (ids ++ [k]) totals' := by
  have hfit (denom : String) : s.owed (ids ++ [k]) denom < 2 ^ 128 := by
    have hbefore := Coin.total_lt h.distinct denom
    rw [owed_append, ← h.amounts]
    cases hk : s.invoice.lookup k with
    | none => exact hbefore
    | some invoice =>
      change Coin.total denom totals + invoice.owing denom < 2 ^ 128
      by_cases hadds : invoice.status ≠ .paid ∧ invoice.receivable.denom = denom
      · obtain ⟨hunpaid, rfl⟩ := hadds
        rw [totalInvoice, gives_mayLoad_bind, invoices_read, hk] at hgives
        simp only [hunpaid, ne_eq, not_false_eq_true, if_true] at hgives
        obtain ⟨raised, hraised, _⟩ := (gives_bind _ _ s totals').mp hgives
        rw [Invoice.owing, if_pos ⟨hunpaid, rfl⟩]
        exact raiseTotal_fits (hle k invoice hk) h.distinct hraised
      · rwa [Invoice.owing, if_neg hadds, Nat.add_zero]
  obtain ⟨totals'', hround, ht⟩ := totalInvoice_gives h hle hfit
  rwa [hgives.unique hround]

/-- The loop of the totals gives a result exactly when the sums over all ids fit. -/
private theorem totalInvoices_gives_some_iff
    (hle : ∀ j i, s.invoice.lookup j = some i → i.amountPaid.amount ≤ i.receivable.amount) :
    (∃ totals, (ids.foldlM totalInvoice []).Gives s totals) ↔ ∀ denom, s.owed ids denom < 2 ^ 128 := by
  constructor
  · intro hx denom
    obtain ⟨totals, hgives⟩ := hx
    have ht : TotalledInvoices s ids totals :=
      hgives.of_foldlM (I := fun done totals => TotalledInvoices s done totals) .nil fun _ _ _ _ hi hround =>
        hi.round hle hround
    rw [← ht.amounts]
    exact Coin.total_lt ht.distinct denom
  · intro hfit
    obtain ⟨totals, hgives, _⟩ := totalInvoices_gives hle hfit
    exact ⟨totals, hgives⟩

theorem accountTotals_iff {address : Addr}
    (hle : ∀ k invoice, s.invoice.lookup k = some invoice → invoice.amountPaid.amount ≤ invoice.receivable.amount)
    (hreg : Registers s.invoice (fun invoice => party invoice = address) (listed index s.contactInfo address)) :
    (∃ totals, (totalInvoices index address).Gives s totals) ↔
      ∀ denom, s.outstanding party address denom < 2 ^ 128 := by
  simp only [totalInvoices_gives_iff, totalInvoices_gives_some_iff hle, owed_eq_outstanding hreg]

end Loops

/-- At the start nothing is left to pay. -/
private theorem Storage.SumsFit.start : Storage.start.SumsFit :=
  ⟨fun _ _ => Nat.two_pow_pos 128, fun _ _ => Nat.two_pow_pos 128⟩

section Laws
variable {env : Env} {h : History} {s s' : Storage} {party : Invoice → Addr}

/-- No rewriting of an invoice leaves more of it to pay. -/
private theorem Rewrite.owing_le {k : U64} {c : Call} {old new : Invoice} (hw : Rewrite s k c old new)
    (denom : String) :
    new.owing denom ≤ old.owing denom := by
  have hpaid := (Word.le_iff _ _).mp hw.step.paid_le
  have hunpaid : old.status ≠ .paid := by
    cases hw with
    | accept hready =>
      rw [hready.raised]
      exact fun hst => (nomatch hst)
    | credit hready => exact hready.unpaid
  by_cases hd : old.receivable.denom = denom
  · have hold : old.owing denom = old.receivable.amount.val - old.amountPaid.amount.val := if_pos ⟨hunpaid, hd⟩
    rw [hold, Invoice.owing, hw.sameTerms.receivable]
    split
    · exact Nat.sub_le_sub_left hpaid _
    · exact Nat.zero_le _
  · have hnew : new.owing denom = 0 := if_neg fun hx => hd (hw.sameTerms.receivable ▸ hx.2)
    rw [hnew]
    exact Nat.zero_le _

private theorem Rewrite.outstanding_le {k : U64} {c : Call} {old new : Invoice} (hw : Rewrite s k c old new)
    (hs : s'.invoice = s.invoice.insert k new) (hparty : party new = party old) (address : Addr) (denom : String) :
    s'.outstanding party address denom ≤ s.outstanding party address denom := by
  unfold Storage.outstanding
  rw [hs]
  apply tally_insert_le hw.stored
  rw [hparty]
  split
  · exact hw.owing_le denom
  · exact le_refl 0

/-- Accepting an invoice and paying it keep the sums in range. -/
private theorem Rewrite.sumsFit {k : U64} {c : Call} {old new : Invoice} (hw : Rewrite s k c old new)
    (hs : s'.invoice = s.invoice.insert k new) (hfit : s.SumsFit) : s'.SumsFit := by
  constructor
  · intro address denom
    apply Nat.lt_of_le_of_lt _ (hfit.receivable address denom)
    exact hw.outstanding_le hs hw.sameTerms.creditor address denom
  · intro address denom
    apply Nat.lt_of_le_of_lt _ (hfit.payable address denom)
    exact hw.outstanding_le hs hw.sameTerms.payeeAddress address denom

private theorem Rewrite.not_overburdens {k : U64} {c : Call} {old new : Invoice} (hw : Rewrite s k c old new) :
    ¬ overburdens s c := by
  intro hx
  obtain ⟨_, _, _, rfl, _⟩ := hx
  obtain ⟨_, _, hc | hc⟩ := hw.by_payee <;> cases hc

variable (party) in
/-- An invoice just raised leaves all of its receivable to pay, and nothing else changes. -/
theorem outstanding_raised {terms : InvoiceTerms} {sender : Addr} {id : U64} (hfresh : id ∉ s.invoice)
    (hs : s'.invoice = s.invoice.insert id (terms.raised sender id)) (address : Addr) (denom : String) :
    s'.outstanding party address denom = s.outstanding party address denom +
      if party (terms.raised sender id) = address ∧ terms.receivable.denom = denom then
        terms.receivable.amount.val else 0 := by
  have howing : (terms.raised sender id).owing denom =
      if terms.receivable.denom = denom then terms.receivable.amount.val else 0 :=
    if_congr ⟨And.right, fun hd => ⟨fun hst => (nomatch hst), hd⟩⟩ rfl rfl
  unfold Storage.outstanding
  rw [hs, tally_insert hfresh, howing, ite_and]

/-- Sums that fit still fit when one account's sum in one denomination grows, as long as that one does. -/
private theorem fits_iff {f g : Addr → String → Nat} {a : Addr} {d : String} {amount : Nat}
    (hf : ∀ address denom, f address denom < 2 ^ 128)
    (hg : ∀ address denom, g address denom = f address denom + if a = address ∧ d = denom then amount else 0) :
    (∀ address denom, g address denom < 2 ^ 128) ↔ f a d + amount < 2 ^ 128 := by
  constructor
  · intro hall
    have hlt := hall a d
    rwa [hg, if_pos ⟨rfl, rfl⟩] at hlt
  · intro hlt address denom
    rw [hg]
    by_cases hx : a = address ∧ d = denom
    · obtain ⟨rfl, rfl⟩ := hx
      rwa [if_pos ⟨rfl, rfl⟩]
    · rw [if_neg hx]
      exact hf address denom

/-- Of all effects, only that of an overburdening invoice takes a sum out of range. -/
private theorem sumsFit_iff (hr : Run (rwa env) h s) {c : Call} {r : Reply} (hfit : s.SumsFit)
    (he : Effect env s c r s') :
    s'.SumsFit ↔ ¬ overburdens s c := by
  have hmove := he.invoiceMove
  generalize hm : s'.invoice = m at hmove
  cases hmove with
  | keep hc _ =>
    have hsame (party : Invoice → Addr) : s'.outstanding party = s.outstanding party := by
      funext address denom
      rw [Storage.outstanding, hm, Storage.outstanding]
    refine iff_of_true ⟨?_, ?_⟩ ?_
    · rw [hsame]
      exact hfit.receivable
    · rw [hsame]
      exact hfit.payable
    · rintro ⟨_, _, _, rfl, _⟩
      cases hc
  | @raise info terms b hready =>
    have hfresh := next_id_fresh hr b.id hready.id
    have hreceivable := fits_iff hfit.receivable (outstanding_raised Invoice.from hfresh hm)
    have hpayable := fits_iff hfit.payable (outstanding_raised Invoice.payeeAddress hfresh hm)
    constructor
    · intro hfit' hx
      obtain ⟨_, _, _, heq, _, hover⟩ := hx
      cases heq
      rcases hover with hover | hover
      · exact Nat.not_lt.mpr hover (hreceivable.mp hfit'.receivable)
      · exact Nat.not_lt.mpr hover (hpayable.mp hfit'.payable)
    · intro hno
      refine ⟨hreceivable.mpr ?_, hpayable.mpr ?_⟩
      · exact Nat.not_le.mp fun hover => hno ⟨info, terms, b, rfl, hready, .inl hover⟩
      · exact Nat.not_le.mp fun hover => hno ⟨info, terms, b, rfl, hready, .inr hover⟩
  | accept hready =>
    have hw : Rewrite s _ _ _ _ := .accept hready
    exact iff_of_true (hw.sumsFit hm hfit) hw.not_overburdens
  | credit hready =>
    have hw : Rewrite s _ _ _ _ := .credit hready
    exact iff_of_true (hw.sumsFit hm hfit) hw.not_overburdens

/-- In a state reached, all totals are answered exactly when they fit. -/
private theorem totalsAnswered_iff (hr : Run (rwa env) h s) : TotalsAnswered s ↔ s.SumsFit := by
  obtain ⟨count, hi⟩ := indexed hr
  have hreceivable (address : Addr) := accountTotals_iff (paid_within hr) (hi.generated address)
  have hpayable (address : Addr) := accountTotals_iff (paid_within hr) (hi.assigned address)
  constructor
  · intro ha
    exact ⟨fun address => (hreceivable address).mp (ha address).1, fun address => (hpayable address).mp (ha address).2⟩
  · intro hfit address
    exact ⟨(hreceivable address).mpr (hfit.receivable address), (hpayable address).mpr (hfit.payable address)⟩

/-- All totals are answered in every state of a run exactly when no call of the run overburdens an account. -/
theorem totals_answered_iff (hr : Run (rwa env) h s) :
    (∀ e ∈ h, TotalsAnswered e.after) ↔ ∀ e ∈ h, ¬ overburdens e.before e.call := by
  calc (∀ e ∈ h, TotalsAnswered e.after) ↔ ∀ e ∈ h, e.after.SumsFit := by
        apply forall₂_congr
        intro e he
        obtain ⟨h', hr'⟩ := hr.reaches_after he
        exact totalsAnswered_iff hr'
    _ ↔ ∀ e ∈ h, ¬ overburdens e.before e.call := by
        refine rwa_throughout (P := fun e => e.after.SumsFit) (fun e hfit => hfit) ?_ ?_ ?_ ?_ hr
        · exact fun s c _ hx => effect_of_raises hx
        · exact fun info => iff_of_true .start (not_raises_of_opens rfl)
        · exact fun h s c r s' hr hfit he => sumsFit_iff hr hfit he
        · exact fun s c e hfit => hfit

end Laws

theorem totals_answered_iff_of_settled :
    (∀ e ∈ Sample.history Sample.settled, TotalsAnswered e.after) ↔
      ∀ e ∈ Sample.history Sample.settled, ¬ overburdens e.before e.call :=
  totals_answered_iff (Sample.run Sample.settled (by decide))

/-- Two invoices over half of all dollars there can be, raised by Alice on Bob. -/
def Sample.overburdened : List Call :=
  let terms : InvoiceTerms := { Sample.terms 0 with receivable := ⟨"uusd", ⟨2 ^ 127, by decide⟩⟩ }
  Sample.configured ++
    [Sample.call Sample.alice (.createInvoice terms), Sample.call Sample.alice (.createInvoice terms)]

/-- Neither of them is told a total from then on. -/
theorem totals_panic :
    Run (rwa Sample.env) (Sample.history Sample.overburdened) (Sample.storage Sample.overburdened) ∧
    (getTotalReceivables Sample.alice).Fails (Sample.storage Sample.overburdened) .panic ∧
    (getTotalPayables Sample.bob).Fails (Sample.storage Sample.overburdened) .panic ∧
    ¬ TotalsAnswered (Sample.storage Sample.overburdened) := by
  have hpanic : (getTotalPayables Sample.bob).Fails (Sample.storage Sample.overburdened) .panic := rfl
  refine ⟨Sample.run Sample.overburdened (by decide), rfl, hpanic, ?_⟩
  intro ha
  obtain ⟨totals, hgives⟩ := (ha Sample.bob).2
  cases hpanic.symm.trans hgives

end ComdexRwa.Core
