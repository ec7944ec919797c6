import ComdexRwa.Core.InvoiceLife
import ComdexRwa.Core.Panics
import ComdexRwa.Core.Query
import ComdexRwa.Foundation.Tally

/-! The totals that accounts can ask for, against the invoices stored. They give what is left to pay
in each denomination, as long as it fits, and the two sides of the books agree. -/
namespace ComdexRwa.Core
open Foundation Query

/-- What all stored invoices with the given party leave to pay in one denomination. -/
def Storage.outstanding (s : Storage) (party : Invoice → Addr) (address : Addr) (denom : String) : Nat :=
  tally s.invoice fun invoice => if party invoice = address then invoice.owing denom else 0

/-- Whatever is to be paid to or by one account, in one denomination, is within the range of amounts. -/
structure Storage.SumsFit (s : Storage) : Prop where
  receivable : ∀ address denom, s.outstanding Invoice.from address denom < 2 ^ 128
  payable : ∀ address denom, s.outstanding Invoice.payeeAddress address denom < 2 ^ 128

/-- One coin for each denomination in which the account has an unpaid invoice, with all that is
left to pay in it. -/
structure AccountTotals (s : Storage) (party : Invoice → Addr) (address : Addr) (totals : List Coin) : Prop where
  distinct : (totals.map Coin.denom).Nodup
  denoms : ∀ denom, denom ∈ totals.map Coin.denom ↔ ∃ k invoice, s.invoice.lookup k = some invoice ∧
    party invoice = address ∧ invoice.status ≠ .paid ∧ invoice.receivable.denom = denom
  amounts : ∀ coin ∈ totals, coin.amount.val = s.outstanding party address coin.denom

/-- The totals are the books: no invoice is paid beyond its amount, every account is told what its
invoices leave to pay, and over all profiles the two sides come to the same. -/
structure Books (s : Storage) : Prop where
  within : ∀ k invoice, s.invoice.lookup k = some invoice → invoice.amountPaid.amount ≤ invoice.receivable.amount
  receivables : ∀ address, ∃ totals, (getTotalReceivables address).Gives s totals ∧
    AccountTotals s Invoice.from address totals
  payables : ∀ address, ∃ totals, (getTotalPayables address).Gives s totals ∧
    AccountTotals s Invoice.payeeAddress address totals
  balance : ∀ receivables payables : Addr → List Coin,
    (∀ address, (getTotalReceivables address).Gives s (receivables address)) →
    (∀ address, (getTotalPayables address).Gives s (payables address)) →
    ∀ denom, ∑ address ∈ s.contactInfo.keys, Coin.total denom (receivables address) =
      ∑ address ∈ s.contactInfo.keys, Coin.total denom (payables address)

section Laws
variable {env : Env} {h : History} {s : Storage} {index : ContactInfo → List U64} {party : Invoice → Addr}

/-- Without a coin of the denomination there is nothing in it. -/
theorem Coin.total_eq_zero {coins : List Coin} {denom : String} (hno : denom ∉ coins.map Coin.denom) :
    Coin.total denom coins = 0 := by
  rw [Coin.total, List.filter_eq_nil_iff.mpr]
  · rfl
  · intro coin hcoin hd
    have hd : coin.denom = denom := by simpa using hd
    exact hno (hd ▸ List.mem_map_of_mem hcoin)

/-- With one coin a denomination, each coin is the total of its own. -/
theorem Coin.total_of_mem {coins : List Coin} (hdistinct : (coins.map Coin.denom).Nodup) {coin : Coin}
    (hmem : coin ∈ coins) : Coin.total coin.denom coins = coin.amount.val := by
  induction coins with
  | nil => cases hmem
  | cons c rest ih =>
    rw [List.map_cons, List.nodup_cons] at hdistinct
    rw [Coin.total_cons]
    rcases List.mem_cons.mp hmem with rfl | hmem
    · rw [if_pos rfl, Coin.total_eq_zero hdistinct.1, Nat.add_zero]
    · have hne : c.denom ≠ coin.denom := fun hd => hdistinct.1 (hd ▸ List.mem_map_of_mem hmem)
      rw [if_neg hne, Nat.zero_add, ih hdistinct.2 hmem]

/-- Going through the index of an account takes its invoices, and no others. -/
theorem owed_eq_outstanding {address : Addr} {ids : List U64}
    (hreg : Registers s.invoice (fun invoice => party invoice = address) ids) (denom : String) :
    s.owed ids denom = s.outstanding party address denom := hreg.sum_eq (Invoice.owing denom)

private theorem TotalledInvoices.account {address : Addr} {ids : List U64} {totals : List Coin}
    (ht : TotalledInvoices s ids totals)
    (hreg : Registers s.invoice (fun invoice => party invoice = address) ids) :
    AccountTotals s party address totals := by
  refine ⟨ht.distinct, fun denom => ?_, fun coin hcoin => ?_⟩
  · rw [ht.denoms]
    constructor
    · rintro ⟨k, hk, invoice, hstored, hunpaid, hd⟩
      obtain ⟨i, hi, hparty⟩ := (hreg.mem_iff k).mp hk
      cases hstored.symm.trans hi
      exact ⟨k, invoice, hstored, hparty, hunpaid, hd⟩
    · rintro ⟨k, invoice, hstored, hparty, hunpaid, hd⟩
      exact ⟨k, (hreg.mem_iff k).mpr ⟨invoice, hstored, hparty⟩, invoice, hstored, hunpaid, hd⟩
  · rw [← owed_eq_outstanding hreg, ← ht.amounts, Coin.total_of_mem ht.distinct hcoin]

/-- A total goes through what the account's profile lists, if it has one. -/
theorem totalInvoices_gives_iff {address : Addr} {totals : List Coin} :
    (totalInvoices index address).Gives s totals ↔
      ((listed index s.contactInfo address).foldlM totalInvoice []).Gives s totals :=
  gives_mayLoad_foldlM rfl fun _ => rfl

/-- One total of one account, with or without a profile. -/
theorem accountTotals_gives {address : Addr}
    (hle : ∀ k invoice, s.invoice.lookup k = some invoice → invoice.amountPaid.amount ≤ invoice.receivable.amount)
    (hreg : Registers s.invoice (fun invoice => party invoice = address) (listed index s.contactInfo address))
    (hfit : ∀ denom, s.outstanding party address denom < 2 ^ 128) :
    ∃ totals, (totalInvoices index address).Gives s totals ∧ AccountTotals s party address totals ∧
      ∀ denom, Coin.total denom totals = s.outstanding party address denom := by
  have howed (denom : String) := owed_eq_outstanding hreg denom
  obtain ⟨totals, hgives, ht⟩ := totalInvoices_gives hle fun denom => lt_of_eq_of_lt (howed denom) (hfit denom)
  refine ⟨totals, totalInvoices_gives_iff.mpr hgives, ht.account hreg, fun denom => ?_⟩
  exact (ht.amounts denom).trans (howed denom)

/-- Over all profiles, the totals of one side come to what all invoices leave to pay. -/
private theorem sum_outstanding (hparty : ∀ k invoice, s.invoice.lookup k = some invoice →
    party invoice ∈ s.contactInfo)
    (denom : String) : ∑ address ∈ s.contactInfo.keys, s.outstanding party address denom =
      tally s.invoice (Invoice.owing denom) := by
  apply sum_tally_owner party (Invoice.owing denom) s.contactInfo.keys
  intro k invoice hk
  exact Finmap.mem_keys.mpr (hparty k invoice hk)

theorem paid_within (hr : Run (rwa env) h s) (k : U64) (invoice : Invoice)
    (hk : s.invoice.lookup k = some invoice) : invoice.amountPaid.amount ≤ invoice.receivable.amount :=
  (measured hr k invoice hk).within

/-- Every state reached in which the sums fit gives totals that are its books. -/
theorem totals_are_books (hr : Run (rwa env) h s) (hfit : s.SumsFit) : Books s := by
  obtain ⟨count, hi⟩ := indexed hr
  have hle := paid_within hr
  have hreceivable (address : Addr) := accountTotals_gives hle (hi.generated address) (hfit.receivable address)
  have hpayable (address : Addr) := accountTotals_gives hle (hi.assigned address) (hfit.payable address)
  refine ⟨hle, fun address => ?_, fun address => ?_, fun receivables payables hgives hgives' denom => ?_⟩
  · obtain ⟨totals, hgives, ht, _⟩ := hreceivable address
    exact ⟨totals, hgives, ht⟩
  · obtain ⟨totals, hgives, ht, _⟩ := hpayable address
    exact ⟨totals, hgives, ht⟩
  · have htotal (address : Addr) :
        Coin.total denom (receivables address) = s.outstanding Invoice.from address denom := by
      obtain ⟨totals, hg, _, hsum⟩ := hreceivable address
      rw [(hgives address).unique hg, hsum]
    have htotal' (address : Addr) :
        Coin.total denom (payables address) = s.outstanding Invoice.payeeAddress address denom := by
      obtain ⟨totals, hg, _, hsum⟩ := hpayable address
      rw [(hgives' address).unique hg, hsum]
    calc ∑ address ∈ s.contactInfo.keys, Coin.total denom (receivables address)
        = ∑ address ∈ s.contactInfo.keys, s.outstanding Invoice.from address denom :=
          Finset.sum_congr rfl fun address _ => htotal address
      _ = tally s.invoice (Invoice.owing denom) :=
          sum_outstanding (fun k invoice hk => (hi.parties k invoice hk).2.1) denom
      _ = ∑ address ∈ s.contactInfo.keys, s.outstanding Invoice.payeeAddress address denom :=
          (sum_outstanding (fun k invoice hk => (hi.parties k invoice hk).2.2) denom).symm
      _ = ∑ address ∈ s.contactInfo.keys, Coin.total denom (payables address) :=
          Finset.sum_congr rfl fun address _ => (htotal' address).symm

end Laws

/-- The receivables of all invoices bound every sum. -/
private theorem outstanding_le (s : Storage) (party : Invoice → Addr) (address : Addr) (denom : String) :
    s.outstanding party address denom ≤ tally s.invoice fun invoice => invoice.receivable.amount.val := by
  apply tally_mono
  intro invoice
  by_cases hp : party invoice = address
  · rw [if_pos hp, Invoice.owing]
    split
    · exact Nat.sub_le _ _
    · exact Nat.zero_le _
  · rw [if_neg hp]
    exact Nat.zero_le _

/-- Forty of a hundred dollars have been paid. -/
theorem totals_are_books_of_begun :
    Books (Sample.storage Sample.begun) ∧
    (Sample.storage Sample.begun).outstanding Invoice.from Sample.alice "uusd" = 60 := by
  have hsmall : (tally (Sample.storage Sample.begun).invoice fun invoice => invoice.receivable.amount.val) < 2 ^ 128 := by
    decide
  refine ⟨totals_are_books (Sample.run Sample.begun (by decide)) ⟨?_, ?_⟩, by decide⟩
  · exact fun address denom => Nat.lt_of_le_of_lt (outstanding_le _ _ _ _) hsmall
  · exact fun address denom => Nat.lt_of_le_of_lt (outstanding_le _ _ _ _) hsmall

end ComdexRwa.Core
