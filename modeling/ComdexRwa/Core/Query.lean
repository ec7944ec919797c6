import ComdexRwa.Core.State
import ComdexRwa.Foundation.Query

/-! Queries: single records, the pending and executed invoices of an account, its totals, its contacts.
Each loop is followed by what it gives, for any list of ids it may be run on. -/
namespace ComdexRwa.Core
open Foundation Query

/-- A query of the contract's storage. -/
abbrev ContractQuery (α : Type) := Query Storage StdError α

@[simp] theorem contactInfos_read (s : Storage) : contactInfos.read s = s.contactInfo := rfl
@[simp] theorem invoices_read (s : Storage) : invoices.read s = s.invoice := rfl

def getInvoice (invoiceId : U64) : ContractQuery Invoice := load invoices invoiceId

def getLatestInvoiceId : ContractQuery U64 := loadItem invoiceIds

structure ContactResponse where
  name : String
  address : Addr
  companyName : String
  deriving DecidableEq, Repr

structure InvoiceResponse where
  invoice : Invoice
  contact : ContactResponse
  deriving DecidableEq, Repr

structure RequestResponse where
  sentInvoices : List InvoiceResponse
  receivedInvoices : List InvoiceResponse
  deriving DecidableEq, Repr

/-- One round of the loops over invoices: an id without an invoice is passed over, and so is an
invoice whose status is not asked for. -/
def listInvoice (keep : Status → Bool) (party : Invoice → Addr) (out : List InvoiceResponse) (invoiceId : U64) :
    ContractQuery (List InvoiceResponse) := do
  match ← mayLoad invoices invoiceId with
  | none => pure out
  | some invoice =>
    if keep invoice.status then do
      let contactInfo ← load contactInfos (party invoice)
      pure (out ++ [⟨invoice, ⟨contactInfo.name, contactInfo.owner, contactInfo.companyName⟩⟩])
    else pure out

/-- The pending and the executed view differ in the statuses that they keep. -/
def viewInvoices (keep : Status → Bool) (address : Addr) : ContractQuery RequestResponse := do
  match ← mayLoad contactInfos address with
  | none => pure ⟨[], []⟩
  | some contactInfo => do
    let sentInvoices ← contactInfo.generatedInvoices.foldlM (listInvoice keep Invoice.payeeAddress) []
    let receivedInvoices ← contactInfo.assignedInvoices.foldlM (listInvoice keep Invoice.from) []
    pure ⟨sentInvoices, receivedInvoices⟩

def getPendingInvoices (address : Addr) : ContractQuery RequestResponse :=
  viewInvoices (fun status => status ≠ .paid) address

def getExecutedInvoices (address : Addr) : ContractQuery RequestResponse :=
  viewInvoices (fun status => status = .paid) address

/-- What is left to pay of an invoice. -/
def remainder (invoice : Invoice) : ContractQuery Uint128 :=
  expect (invoice.receivable.amount.checkedSub invoice.amountPaid.amount)

/-- The inner loop of the totals: whether a coin of the invoice's denomination was found, and the
coins with the first such coin raised. -/
def raiseTotal (invoice : Invoice) : List Coin → ContractQuery (Bool × List Coin)
  | [] => pure (false, [])
  | coin :: rest =>
    if coin.denom = invoice.receivable.denom then do
      let amount ← expect (coin.amount.checkedAdd (← remainder invoice))
      pure (true, ⟨coin.denom, amount⟩ :: rest)
    else do
      let (found, rest) ← raiseTotal invoice rest
      pure (found, coin :: rest)

/-- Without a coin of its denomination, an invoice adds a new one at the end. -/
def addInvoice (invoice : Invoice) (totals : List Coin) : ContractQuery (List Coin) := do
  let (found, totals) ← raiseTotal invoice totals
  if found then pure totals
  else do
    let amount ← remainder invoice
    pure (totals ++ [⟨invoice.receivable.denom, amount⟩])

def totalInvoice (totals : List Coin) (invoiceId : U64) : ContractQuery (List Coin) := do
  match ← mayLoad invoices invoiceId with
  | none => pure totals
  | some invoice => if invoice.status ≠ .paid then addInvoice invoice totals else pure totals

/-- The two totals differ in the index that they go through. -/
def totalInvoices (index : ContactInfo → List U64) (address : Addr) : ContractQuery (List Coin) := do
  match ← mayLoad contactInfos address with
  | none => pure []
  | some contactInfo => (index contactInfo).foldlM totalInvoice []

def getTotalReceivables (address : Addr) : ContractQuery (List Coin) :=
  totalInvoices ContactInfo.generatedInvoices address

def getTotalPayables (address : Addr) : ContractQuery (List Coin) :=
  totalInvoices ContactInfo.assignedInvoices address

/-- One round of the loops over contacts. A contact without a profile ends the query with an error,
and the address answered is the owner that the profile names. -/
def listContact (response : List ContactResponse) (contact : Addr) : ContractQuery (List ContactResponse) := do
  let contactInfo ← load contactInfos contact
  pure (response ++ [⟨contactInfo.name, contactInfo.owner, contactInfo.companyName⟩])

/-- The three contact queries differ in the list that they go through. -/
def viewContacts (list : ContactInfo → List Addr) (address : Addr) : ContractQuery (List ContactResponse) := do
  match ← mayLoad contactInfos address with
  | none => pure []
  | some contactInfo => (list contactInfo).foldlM listContact []

def getPendingContactRequests (address : Addr) : ContractQuery (List ContactResponse) :=
  viewContacts ContactInfo.receivedRequests address

def getSentContactRequests (address : Addr) : ContractQuery (List ContactResponse) :=
  viewContacts ContactInfo.sentRequests address

def getAllContacts (address : Addr) : ContractQuery (List ContactResponse) :=
  viewContacts ContactInfo.contacts address

private theorem exists_mem_snoc {α : Type} {l : List α} {k : α} {P : α → Prop} :
    (∃ j ∈ l ++ [k], P j) ↔ (∃ j ∈ l, P j) ∨ P k := by
  simp [or_and_right, exists_or]

section Views
variable {s : Storage} {keep : Status → Bool} {party : Invoice → Addr} {ids : List U64}

/-- The entries of the invoices under the given ids, in the order of the ids. -/
structure ListedInvoices (s : Storage) (keep : Status → Bool) (party : Invoice → Addr) (ids : List U64)
    (out : List InvoiceResponse) : Prop where
  mem_iff : ∀ invoice, (∃ entry ∈ out, entry.invoice = invoice) ↔
    ∃ k ∈ ids, s.invoice.lookup k = some invoice ∧ keep invoice.status = true
  sorted : out.Pairwise fun x y => x.invoice.id < y.invoice.id
  contact : ∀ entry ∈ out, ∃ c, s.contactInfo.lookup (party entry.invoice) = some c ∧
    entry.contact = ⟨c.name, party entry.invoice, c.companyName⟩

theorem ListedInvoices.nil : ListedInvoices s keep party [] [] :=
  ⟨fun _ => ⟨fun ⟨_, h, _⟩ => (nomatch h), fun ⟨_, h, _⟩ => (nomatch h)⟩, .nil, fun _ h => (nomatch h)⟩

/-- An id under which nothing is listed leaves the entries as they are. -/
private theorem ListedInvoices.skip {out : List InvoiceResponse} {k : U64} (h : ListedInvoices s keep party ids out)
    (hk : ∀ invoice, s.invoice.lookup k = some invoice → keep invoice.status = false) :
    ListedInvoices s keep party (ids ++ [k]) out := by
  refine ⟨fun invoice => ?_, h.sorted, h.contact⟩
  rw [h.mem_iff, exists_mem_snoc, or_iff_left]
  intro hx
  rw [hk invoice hx.1] at hx
  cases hx.2

/-- An invoice that is kept goes to the end. -/
private theorem ListedInvoices.push {out : List InvoiceResponse} {k : U64} {invoice : Invoice} {c : ContactInfo}
    (h : ListedInvoices s keep party ids out) (hkeyed : ∀ j i, s.invoice.lookup j = some i → i.id = j)
    (hlast : ∀ j ∈ ids, j < k) (hstored : s.invoice.lookup k = some invoice) (hkeep : keep invoice.status = true)
    (hc : s.contactInfo.lookup (party invoice) = some c) :
    ListedInvoices s keep party (ids ++ [k])
      (out ++ [⟨invoice, ⟨c.name, party invoice, c.companyName⟩⟩]) := by
  constructor
  · intro i
    rw [exists_mem_snoc, exists_mem_snoc, h.mem_iff, hstored, Option.some.injEq]
    refine or_congr_right ⟨fun hi => ⟨hi, hi ▸ hkeep⟩, fun hi => hi.1⟩
  · rw [List.pairwise_append]
    refine ⟨h.sorted, List.pairwise_singleton _ _, fun x hx y hy => ?_⟩
    obtain ⟨j, hj, hi, _⟩ := (h.mem_iff _).mp ⟨x, hx, rfl⟩
    rw [List.mem_singleton.mp hy, hkeyed j _ hi, hkeyed k _ hstored]
    exact hlast j hj
  · intro entry hentry
    rcases List.mem_append.mp hentry with hentry | hentry
    · exact h.contact entry hentry
    · rw [List.mem_singleton] at hentry
      subst hentry
      exact ⟨c, hc, rfl⟩

/-- One round, when every party to a stored invoice has a profile of its own. -/
private theorem listInvoice_gives {out : List InvoiceResponse} {k : U64} (h : ListedInvoices s keep party ids out)
    (hkeyed : ∀ j i, s.invoice.lookup j = some i → i.id = j)
    (hparty : ∀ j i, s.invoice.lookup j = some i → ∃ c, s.contactInfo.lookup (party i) = some c ∧ c.owner = party i)
    (hlast : ∀ j ∈ ids, j < k) :
    ∃ out', (listInvoice keep party out k).Gives s out' ∧ ListedInvoices s keep party (ids ++ [k]) out' := by
  cases hk : s.invoice.lookup k with
  | none =>
    refine ⟨out, ?_, h.skip fun invoice hi => ?_⟩
    · rw [listInvoice, gives_mayLoad_bind, invoices_read, hk, gives_pure]
    · cases hk.symm.trans hi
  | some invoice =>
    cases hkeep : keep invoice.status with
    | false =>
      refine ⟨out, ?_, h.skip fun i hi => ?_⟩
      · rw [listInvoice, gives_mayLoad_bind, invoices_read, hk]
        simp only [hkeep, Bool.false_eq_true, if_false, gives_pure]
      · cases hk.symm.trans hi
        exact hkeep
    | true =>
      obtain ⟨c, hc, howner⟩ := hparty k invoice hk
      refine ⟨_, ?_, h.push hkeyed hlast hk hkeep hc⟩
      rw [listInvoice, gives_mayLoad_bind, invoices_read, hk]
      simp only [hkeep, if_true]
      rw [gives_bind_of ((gives_load contactInfos (party invoice) s c).mpr hc), gives_pure, howner]

/-- The loop over increasing ids. -/
theorem listInvoices_gives (hsorted : ids.Pairwise (· < ·))
    (hkeyed : ∀ j i, s.invoice.lookup j = some i → i.id = j)
    (hparty : ∀ j i, s.invoice.lookup j = some i → ∃ c, s.contactInfo.lookup (party i) = some c ∧ c.owner = party i) :
    ∃ out, (ids.foldlM (listInvoice keep party) []).Gives s out ∧ ListedInvoices s keep party ids out := by
  refine gives_foldlM (I := fun done out => ListedInvoices s keep party done out) .nil ?_
  intro done k rest out hids hi
  refine listInvoice_gives hi hkeyed hparty fun j hj => ?_
  rw [hids] at hsorted
  exact (List.pairwise_append.mp hsorted).2.2 j hj k List.mem_cons_self

end Views

section Totals
variable {s : Storage} {ids : List U64}

/-- What an invoice adds to the total in one denomination. -/
def Invoice.owing (denom : String) (invoice : Invoice) : Nat :=
  if invoice.status ≠ .paid ∧ invoice.receivable.denom = denom then
    invoice.receivable.amount.val - invoice.amountPaid.amount.val
  else 0

/-- What the invoices under the given ids add up to in one denomination. -/
def Storage.owed (s : Storage) (ids : List U64) (denom : String) : Nat :=
  (ids.map fun k => (s.invoice.lookup k).elim 0 (Invoice.owing denom)).sum

/-- The totals of the invoices under the given ids: one coin a denomination, none without an invoice. -/
structure TotalledInvoices (s : Storage) (ids : List U64) (totals : List Coin) : Prop where
  distinct : (totals.map Coin.denom).Nodup
  denoms : ∀ denom, denom ∈ totals.map Coin.denom ↔ ∃ k ∈ ids, ∃ invoice, s.invoice.lookup k = some invoice ∧
    invoice.status ≠ .paid ∧ invoice.receivable.denom = denom
  amounts : ∀ denom, Coin.total denom totals = s.owed ids denom

theorem Coin.total_cons (denom : String) (coin : Coin) (coins : List Coin) :
    Coin.total denom (coin :: coins) = (if coin.denom = denom then coin.amount.val else 0) + Coin.total denom coins := by
  by_cases hd : coin.denom = denom <;> simp [Coin.total, hd]

private theorem Coin.total_append (denom : String) (coins coins' : List Coin) :
    Coin.total denom (coins ++ coins') = Coin.total denom coins + Coin.total denom coins' := by
  simp [Coin.total]

theorem remainder_gives {invoice : Invoice} (hle : invoice.amountPaid.amount ≤ invoice.receivable.amount) :
    (remainder invoice).Gives s (invoice.receivable.amount.minus invoice.amountPaid.amount) :=
  (gives_expect _ s _).mpr ((Word.checkedSub_eq_some _ _ _).mpr ⟨hle, rfl⟩)

/-- The inner loop adds what is left of the invoice to the total of its denomination, if there is one. -/
private theorem raiseTotal_gives {invoice : Invoice} (hle : invoice.amountPaid.amount ≤ invoice.receivable.amount)
    (totals : List Coin)
    (hfit : Coin.total invoice.receivable.denom totals +
      (invoice.receivable.amount.val - invoice.amountPaid.amount.val) < 2 ^ 128) :
    ∃ totals', (raiseTotal invoice totals).Gives s
        (decide (invoice.receivable.denom ∈ totals.map Coin.denom), totals') ∧
      totals'.map Coin.denom = totals.map Coin.denom ∧
      ∀ denom, Coin.total denom totals' = Coin.total denom totals +
        if denom = invoice.receivable.denom ∧ denom ∈ totals.map Coin.denom then
          invoice.receivable.amount.val - invoice.amountPaid.amount.val else 0 := by
  induction totals with
  | nil => exact ⟨[], rfl, rfl, fun denom => by simp⟩
  | cons coin rest ih =>
    rw [Coin.total_cons] at hfit
    by_cases hd : coin.denom = invoice.receivable.denom
    · rw [if_pos hd] at hfit
      have hsum : coin.amount.val + (invoice.receivable.amount.val - invoice.amountPaid.amount.val) < 2 ^ 128 := by
        omega
      have hadd := (Word.checkedAdd_eq_some coin.amount
        (invoice.receivable.amount.minus invoice.amountPaid.amount) ⟨_, hsum⟩).mpr rfl
      refine ⟨⟨coin.denom, ⟨_, hsum⟩⟩ :: rest, ?_, rfl, fun denom => ?_⟩
      · rw [raiseTotal, if_pos hd, gives_bind_of (remainder_gives hle),
          gives_bind_of ((gives_expect _ s _).mpr hadd), gives_pure]
        simp [hd]
      · rw [Coin.total_cons, Coin.total_cons]
        by_cases hc : coin.denom = denom
        · subst hc
          simp only [if_true, hd, List.map_cons, List.mem_cons, true_or, and_self]
          omega
        · have hne : denom ≠ invoice.receivable.denom := fun h => hc (hd.trans h.symm)
          simp [hc, hne]
    · rw [if_neg hd, Nat.zero_add] at hfit
      obtain ⟨rest', hgives, hdenoms, htotal⟩ := ih hfit
      have hd' : invoice.receivable.denom ≠ coin.denom := fun h => hd h.symm
      refine ⟨coin :: rest', ?_, ?_, fun denom => ?_⟩
      · rw [raiseTotal, if_neg hd, gives_bind_of hgives, gives_pure]
        simp [hd']
      · rw [List.map_cons, List.map_cons, hdenoms]
      · rw [Coin.total_cons, Coin.total_cons, htotal, Nat.add_assoc]
        by_cases hc : denom = invoice.receivable.denom
        · subst hc
          simp [hd']
        · simp [hc]

private theorem addInvoice_gives {invoice : Invoice} (hle : invoice.amountPaid.amount ≤ invoice.receivable.amount)
    {totals : List Coin} (hdistinct : (totals.map Coin.denom).Nodup)
    (hfit : Coin.total invoice.receivable.denom totals +
      (invoice.receivable.amount.val - invoice.amountPaid.amount.val) < 2 ^ 128) :
    ∃ totals', (addInvoice invoice totals).Gives s totals' ∧ (totals'.map Coin.denom).Nodup ∧
      (∀ denom, denom ∈ totals'.map Coin.denom ↔
        denom ∈ totals.map Coin.denom ∨ denom = invoice.receivable.denom) ∧
      ∀ denom, Coin.total denom totals' = Coin.total denom totals +
        if denom = invoice.receivable.denom then
          invoice.receivable.amount.val - invoice.amountPaid.amount.val else 0 := by
  obtain ⟨raised, hgives, hdenoms, htotal⟩ := raiseTotal_gives (s := s) hle totals hfit
  by_cases hfound : invoice.receivable.denom ∈ totals.map Coin.denom
  · refine ⟨raised, ?_, hdenoms ▸ hdistinct, fun denom => ?_, fun denom => ?_⟩
    · rw [addInvoice, gives_bind_of hgives]
      simp [hfound]
    · rw [hdenoms, or_iff_left_of_imp]
      rintro rfl
      exact hfound
    · rw [htotal]
      by_cases hd : denom = invoice.receivable.denom
      · rw [hd, if_pos ⟨rfl, hfound⟩, if_pos rfl]
      · rw [if_neg fun hx => hd hx.1, if_neg hd]
  · refine ⟨raised ++ [⟨invoice.receivable.denom, invoice.receivable.amount.minus invoice.amountPaid.amount⟩],
      ?_, ?_, fun denom => ?_, fun denom => ?_⟩
    · rw [addInvoice, gives_bind_of hgives]
      simp only [hfound, decide_false, Bool.false_eq_true, if_false]
      rw [gives_bind_of (remainder_gives hle), gives_pure]
    · rw [List.map_append, hdenoms, List.nodup_append]
      refine ⟨hdistinct, List.nodup_singleton _, fun d hd d' hd' => ?_⟩
      rw [List.mem_singleton.mp hd']
      rintro rfl
      exact hfound hd
    · rw [List.map_append, hdenoms, List.mem_append, List.map_singleton, List.mem_singleton]
    · have hnone : ¬ (denom = invoice.receivable.denom ∧ denom ∈ totals.map Coin.denom) := by
        rintro ⟨rfl, hmem⟩
        exact hfound hmem
      rw [Coin.total_append, Coin.total_singleton, htotal, if_neg hnone, Nat.add_zero]
      exact congrArg _ (if_congr eq_comm rfl rfl)

theorem TotalledInvoices.nil : TotalledInvoices s [] [] :=
  ⟨List.nodup_nil, fun _ => ⟨fun h => (nomatch h), fun ⟨_, h, _⟩ => (nomatch h)⟩, fun _ => rfl⟩

theorem owed_append (ids : List U64) (k : U64) (denom : String) :
    s.owed (ids ++ [k]) denom = s.owed ids denom + (s.invoice.lookup k).elim 0 (Invoice.owing denom) := by
  simp [Storage.owed]

/-- An id without an unpaid invoice adds nothing. -/
private theorem TotalledInvoices.skip {totals : List Coin} {k : U64} (h : TotalledInvoices s ids totals)
    (hk : ∀ invoice, s.invoice.lookup k = some invoice → invoice.status = .paid) :
    TotalledInvoices s (ids ++ [k]) totals := by
  refine ⟨h.distinct, fun denom => ?_, fun denom => ?_⟩
  · rw [h.denoms, exists_mem_snoc, or_iff_left]
    intro hx
    obtain ⟨invoice, hstored, hunpaid, _⟩ := hx
    exact hunpaid (hk invoice hstored)
  · rw [owed_append, h.amounts]
    cases hi : s.invoice.lookup k with
    | none => rfl
    | some invoice => simp [Invoice.owing, hk invoice hi]

/-- An unpaid invoice adds what is left of it, to the coin of its denomination or as a new one. -/
private theorem TotalledInvoices.push {totals totals' : List Coin} {k : U64} {invoice : Invoice}
    (h : TotalledInvoices s ids totals) (hk : s.invoice.lookup k = some invoice) (hunpaid : invoice.status ≠ .paid)
    (hdistinct : (totals'.map Coin.denom).Nodup)
    (hdenoms : ∀ denom, denom ∈ totals'.map Coin.denom ↔
      denom ∈ totals.map Coin.denom ∨ denom = invoice.receivable.denom)
    (hamounts : ∀ denom, Coin.total denom totals' = Coin.total denom totals + invoice.owing denom) :
    TotalledInvoices s (ids ++ [k]) totals' := by
  refine ⟨hdistinct, fun denom => ?_, fun denom => ?_⟩
  · rw [hdenoms, h.denoms, exists_mem_snoc]
    refine or_congr_right ⟨fun hd => ⟨invoice, hk, hunpaid, hd.symm⟩, fun hx => ?_⟩
    obtain ⟨i, hi, _, hd⟩ := hx
    cases hk.symm.trans hi
    exact hd.symm
  · rw [owed_append, hamounts, h.amounts, hk]
    rfl

/-- One round of the totals, as long as they fit. -/
theorem totalInvoice_gives {totals : List Coin} {k : U64} (h : TotalledInvoices s ids totals)
    (hle : ∀ j i, s.invoice.lookup j = some i → i.amountPaid.amount ≤ i.receivable.amount)
    (hfit : ∀ denom, s.owed (ids ++ [k]) denom < 2 ^ 128) :
    ∃ totals', (totalInvoice totals k).Gives s totals' ∧ TotalledInvoices s (ids ++ [k]) totals' := by
  cases hk : s.invoice.lookup k with
  | none =>
    refine ⟨totals, ?_, h.skip fun invoice hi => ?_⟩
    · rw [totalInvoice, gives_mayLoad_bind, invoices_read, hk, gives_pure]
    · cases hk.symm.trans hi
  | some invoice =>
    by_cases hpaid : invoice.status = .paid
    · refine ⟨totals, ?_, h.skip fun i hi => ?_⟩
      · rw [totalInvoice, gives_mayLoad_bind, invoices_read, hk]
        simp only [hpaid, ne_eq, not_true_eq_false, if_false, gives_pure]
      · cases hk.symm.trans hi
        exact hpaid
    · have howing (denom : String) : invoice.owing denom = if denom = invoice.receivable.denom then
          invoice.receivable.amount.val - invoice.amountPaid.amount.val else 0 :=
        if_congr ⟨fun hx => hx.2.symm, fun hd => ⟨hpaid, hd.symm⟩⟩ rfl rfl
      have hroom := hfit invoice.receivable.denom
      rw [owed_append, hk, ← h.amounts] at hroom
      change Coin.total invoice.receivable.denom totals + invoice.owing invoice.receivable.denom < 2 ^ 128 at hroom
      rw [howing, if_pos rfl] at hroom
      obtain ⟨totals', hgives, hdistinct, hdenoms, htotal⟩ := addInvoice_gives (hle k invoice hk) h.distinct hroom
      refine ⟨totals', ?_, h.push hk hpaid hdistinct hdenoms fun denom => ?_⟩
      · rw [totalInvoice, gives_mayLoad_bind, invoices_read, hk]
        simp only [hpaid, ne_eq, not_false_eq_true, if_true]
        exact hgives
      · rw [htotal, howing]

/-- The loop of the totals, as long as the sums over all ids fit. -/
theorem totalInvoices_gives (hle : ∀ j i, s.invoice.lookup j = some i → i.amountPaid.amount ≤ i.receivable.amount)
    (hfit : ∀ denom, s.owed ids denom < 2 ^ 128) :
    ∃ totals, (ids.foldlM totalInvoice []).Gives s totals ∧ TotalledInvoices s ids totals := by
  refine gives_foldlM (I := fun done totals => TotalledInvoices s done totals) .nil ?_
  intro done k rest totals hids hi
  refine totalInvoice_gives hi hle fun denom => Nat.lt_of_le_of_lt ?_ (hfit denom)
  rw [hids, Storage.owed, Storage.owed]
  simp

end Totals
end ComdexRwa.Core
