import ComdexRwa.Core.Runs
import ComdexRwa.Foundation.Register

/-! The stored invoices, the counter of their ids, and the two indices that the profiles hold of them.
Raising an invoice is the only move that adds one; accepting and paying rewrite it in place. -/
namespace ComdexRwa.Core
open Foundation

/-- What two records of one invoice share for good. -/
structure Invoice.SameTerms (invoice old : Invoice) : Prop where
  id : invoice.id = old.id
  creditor : invoice.from = old.from
  payeeAddress : invoice.payeeAddress = old.payeeAddress
  nftId : invoice.nftId = old.nftId
  docUri : invoice.docUri = old.docUri
  receivable : invoice.receivable = old.receivable
  serviceType : invoice.serviceType = old.serviceType

namespace Invoice.SameTerms

theorem refl (invoice : Invoice) : invoice.SameTerms invoice := ⟨rfl, rfl, rfl, rfl, rfl, rfl, rfl⟩

theorem trans {i j k : Invoice} (h : k.SameTerms j) (h' : j.SameTerms i) : k.SameTerms i :=
  ⟨h.id.trans h'.id, h.creditor.trans h'.creditor, h.payeeAddress.trans h'.payeeAddress,
    h.nftId.trans h'.nftId, h.docUri.trans h'.docUri, h.receivable.trans h'.receivable,
    h.serviceType.trans h'.serviceType⟩

theorem credited (invoice : Invoice) (total : Uint128) : (invoice.credited total).SameTerms invoice :=
  ⟨rfl, rfl, rfl, rfl, rfl, rfl, rfl⟩

theorem accepted (invoice : Invoice) : Invoice.SameTerms { invoice with status := .accepted } invoice :=
  ⟨rfl, rfl, rfl, rfl, rfl, rfl, rfl⟩

end Invoice.SameTerms

/-- The three calls that write an invoice. -/
def Call.writesInvoice : Call → Bool
  | .execute _ (.createInvoice _) => true
  | .execute _ (.acceptInvoice _) => true
  | .execute _ (.payInvoice _) => true
  | _ => false

/-- What a returning call does to the stored invoices, and the messages it sends with that. -/
inductive InvoiceMove (env : Env) (s : Storage) : Call → Reply → Finmap (fun _ : U64 => Invoice) → Prop where
  | keep {c : Call} {r : Reply} : c.writesInvoice = false → r.messages = [] → InvoiceMove env s c r s.invoice
  | raise {info : MessageInfo} {terms : InvoiceTerms} {b : InvoiceBasis} : InvoiceReady s info terms b →
      InvoiceMove env s (.execute info (.createInvoice terms)) (createInvoiceReply env info.sender terms b)
        (s.invoice.insert b.id (terms.raised info.sender b.id))
  | accept {info : MessageInfo} {invoiceId : U64} {invoice : Invoice} :
      AcceptanceReady s info invoiceId invoice →
      InvoiceMove env s (.execute info (.acceptInvoice invoiceId)) (acceptInvoiceReply invoiceId)
        (s.invoice.insert invoiceId { invoice with status := .accepted })
  | credit {info : MessageInfo} {invoiceId : U64} {b : PaymentBasis} : PaymentReady s info invoiceId b →
      InvoiceMove env s (.execute info (.payInvoice invoiceId)) (payInvoiceReply invoiceId b)
        (s.invoice.insert invoiceId (b.invoice.credited b.total))

theorem Effect.invoiceMove {env : Env} {s s' : Storage} {c : Call} {r : Reply} (he : Effect env s c r s') :
    InvoiceMove env s c r s'.invoice := by
  cases he with
  | createInvoice hready => exact .raise hready
  | acceptInvoice hready => exact .accept hready
  | payInvoice hready => exact .credit hready
  | _ => exact .keep rfl rfl

namespace Storage

def generatedInvoices (s : Storage) : Addr → List U64 := listed ContactInfo.generatedInvoices s.contactInfo
def assignedInvoices (s : Storage) : Addr → List U64 := listed ContactInfo.assignedInvoices s.contactInfo

/-- The counter, the invoices and the indices fit together; `count` is the counter's value. -/
structure Indexed (s : Storage) (count : U64) : Prop where
  present : s.invoiceId = some count
  begun : 1000000 ≤ count.val
  keyed : ∀ k invoice, s.invoice.lookup k = some invoice → invoice.id = k ∧ invoice.nftId = k
  within : ∀ k ∈ s.invoice, 1000000 < k.val ∧ k ≤ count
  parties : ∀ k invoice, s.invoice.lookup k = some invoice →
    invoice.from ≠ invoice.payeeAddress ∧ invoice.from ∈ s.contactInfo ∧ invoice.payeeAddress ∈ s.contactInfo
  generated : ∀ a, Registers s.invoice (fun invoice => invoice.from = a) (s.generatedInvoices a)
  assigned : ∀ a, Registers s.invoice (fun invoice => invoice.payeeAddress = a) (s.assignedInvoices a)

private theorem Indexed.start : Storage.start.Indexed 1000000 := by
  refine ⟨rfl, by decide, ?_, ?_, ?_, fun a => .empty, fun a => .empty⟩
  · intro k invoice h
    cases h
  · intro k h
    cases Finmap.notMem_empty h
  · intro k invoice h
    cases h

section Moves
variable {env : Env} {s s' : Storage} {count : U64} {info : MessageInfo}

/-- A call that only adds profiles, or rewrites their other fields, keeps the index. -/
private theorem Indexed.profiles (hi : s.Indexed count) (hid : s'.invoiceId = s.invoiceId)
    (hinv : s'.invoice = s.invoice)
    (hg : s'.generatedInvoices = s.generatedInvoices) (ha : s'.assignedInvoices = s.assignedInvoices)
    (hp : ∀ a ∈ s.contactInfo, a ∈ s'.contactInfo) : s'.Indexed count := by
  constructor
  · rw [hid]
    exact hi.present
  · exact hi.begun
  · rw [hinv]
    exact hi.keyed
  · rw [hinv]
    exact hi.within
  · rw [hinv]
    intro k invoice h
    obtain ⟨hne, hf, ht⟩ := hi.parties k invoice h
    exact ⟨hne, hp _ hf, hp _ ht⟩
  · rw [hinv, hg]
    exact hi.generated
  · rw [hinv, ha]
    exact hi.assigned

/-- Rewriting an invoice under its old terms keeps the index. -/
private theorem Indexed.rewritten (hi : s.Indexed count) {k : U64} {invoice old : Invoice}
    (hk : s.invoice.lookup k = some old) (hsame : invoice.SameTerms old) :
    Indexed { s with invoice := s.invoice.insert k invoice } count := by
  refine ⟨hi.present, hi.begun, ?_, ?_, ?_, fun a => ?_, fun a => ?_⟩
  · intro j found h
    rcases lookup_insert_eq_some.mp h with ⟨rfl, rfl⟩ | ⟨_, h⟩
    · rw [hsame.id, hsame.nftId]
      exact hi.keyed _ old hk
    · exact hi.keyed j found h
  · intro j h
    exact hi.within j ((mem_insert_of_mem (Finmap.mem_of_lookup_eq_some hk)).mp h)
  · intro j found h
    rcases lookup_insert_eq_some.mp h with ⟨rfl, rfl⟩ | ⟨_, h⟩
    · rw [hsame.creditor, hsame.payeeAddress]
      exact hi.parties _ old hk
    · exact hi.parties j found h
  · refine (hi.generated a).update hk ?_
    rw [hsame.creditor]
  · refine (hi.assigned a).update hk ?_
    rw [hsame.payeeAddress]

/-- The ids that are about to be used lie past every key. -/
theorem Indexed.lt_of_next (hi : s.Indexed count) {id : U64} (hid : id.val = (s.invoiceId.getD 0).val + 1) :
    ∀ k ∈ s.invoice, k < id := by
  intro k hk
  rw [hi.present] at hid
  have hle := (Word.le_iff _ _).mp (hi.within k hk).2
  rw [Word.lt_iff, hid]
  exact Nat.lt_succ_of_le hle

private theorem Indexed.fresh (hi : s.Indexed count) {id : U64} (hid : id.val = (s.invoiceId.getD 0).val + 1) :
    id ∉ s.invoice :=
  fun hk => Nat.lt_irrefl _ (hi.lt_of_next hid id hk)

private theorem generatedInvoices_invoiced {terms : InvoiceTerms} {b : InvoiceBasis}
    (hready : InvoiceReady s info terms b) : (s.invoiced info.sender terms b).generatedInvoices =
      Function.update s.generatedInvoices info.sender (s.generatedInvoices info.sender ++ [b.id]) := by
  have hq := hready.counterparty_saved { b.creator with generatedInvoices := b.creator.generatedInvoices ++ [b.id] }
  change listed _ (Finmap.insert _ _ _) = Function.update (listed _ _) _ _
  rw [listed_insert_same hq, listed_insert]
  · exact congrArg _ (congrArg (· ++ [b.id]) (listed_of_lookup _ hready.creator).symm)
  · rfl

private theorem assignedInvoices_invoiced {terms : InvoiceTerms} {b : InvoiceBasis}
    (hready : InvoiceReady s info terms b) : (s.invoiced info.sender terms b).assignedInvoices =
      Function.update s.assignedInvoices terms.payeeAddress (s.assignedInvoices terms.payeeAddress ++ [b.id]) := by
  change listed _ (Finmap.insert _ _ _) = Function.update (listed _ _) _ _
  rw [listed_insert, listed_insert_same hready.creator]
  · exact congrArg _ (congrArg (· ++ [b.id]) (listed_of_lookup _ hready.counterparty).symm)
  · rfl

/-- A party's register grows by the new key exactly when the new entry is that party's. -/
private theorem registers_raised {m : Finmap fun _ : U64 => Invoice} {f : Invoice → Addr} {l : Addr → List U64}
    {k : U64} {invoice : Invoice} (hl : ∀ a, Registers m (fun invoice => f invoice = a) (l a))
    (hmax : ∀ j ∈ m, j < k) (a : Addr) :
    Registers (m.insert k invoice) (fun invoice => f invoice = a)
      (Function.update l (f invoice) (l (f invoice) ++ [k]) a) := by
  by_cases ha : a = f invoice
  · subst ha
    rw [Function.update_self]
    exact (hl _).append hmax rfl
  · rw [Function.update_of_ne ha]
    exact (hl a).skip (fun hk => lt_irrefl k (hmax k hk)) (Ne.symm ha)

/-- Raising an invoice enters it under a new id, once on each side. -/
private theorem Indexed.invoiced (hi : s.Indexed count) {terms : InvoiceTerms} {b : InvoiceBasis}
    (hready : InvoiceReady s info terms b) : (s.invoiced info.sender terms b).Indexed b.next := by
  have hlt := hi.lt_of_next hready.id
  have hid : b.id.val = count.val + 1 := by
    rw [hready.id, hi.present]
    rfl
  have hnext := hready.next
  have hbegun := hi.begun
  have hgrow (a : Addr) (ha : a ∈ s.contactInfo) : a ∈ (s.invoiced info.sender terms b).contactInfo :=
    Finmap.mem_insert.mpr (.inr (Finmap.mem_insert.mpr (.inr ha)))
  refine ⟨rfl, by omega, ?_, ?_, ?_, fun a => ?_, fun a => ?_⟩
  · intro k invoice h
    rcases lookup_insert_eq_some.mp h with ⟨rfl, rfl⟩ | ⟨_, h⟩
    · exact ⟨rfl, rfl⟩
    · exact hi.keyed k invoice h
  · intro k h
    rw [Word.le_iff]
    rcases Finmap.mem_insert.mp h with rfl | h
    · omega
    · obtain ⟨hlo, hhi⟩ := hi.within k h
      rw [Word.le_iff] at hhi
      omega
  · intro k invoice h
    rcases lookup_insert_eq_some.mp h with ⟨rfl, rfl⟩ | ⟨_, h⟩
    · exact ⟨hready.distinct, hgrow _ (Finmap.mem_of_lookup_eq_some hready.creator),
        hgrow _ (Finmap.mem_of_lookup_eq_some hready.counterparty)⟩
    · obtain ⟨hne, hf, ht⟩ := hi.parties k invoice h
      exact ⟨hne, hgrow _ hf, hgrow _ ht⟩
  · rw [generatedInvoices_invoiced hready]
    exact registers_raised hi.generated hlt a
  · rw [assignedInvoices_invoiced hready]
    exact registers_raised hi.assigned hlt a

/-- Every effect of a later call keeps the index, under a counter that may have moved. -/
private theorem Indexed.effect {c : Call} {r : Reply} (hi : s.Indexed count) (hc : c.opens = false)
    (he : Effect env s c r s') : ∃ count', s'.Indexed count' := by
  cases he with
  | instantiate => cases hc
  | createRequest hready =>
    refine ⟨count, hi.profiles rfl rfl ?_ ?_ ?_⟩
    · exact listed_insert_insert_same hready.sender rfl (hready.recipient_saved _) rfl
    · exact listed_insert_insert_same hready.sender rfl (hready.recipient_saved _) rfl
    · exact fun a ha => Finmap.mem_insert.mpr (.inr (Finmap.mem_insert.mpr (.inr ha)))
  | acceptRequest hready =>
    refine ⟨count, hi.profiles rfl rfl ?_ ?_ ?_⟩
    · exact listed_insert_insert_same hready.sender rfl hready.requester rfl
    · exact listed_insert_insert_same hready.sender rfl hready.requester rfl
    · exact fun a ha => Finmap.mem_insert.mpr (.inr (Finmap.mem_insert.mpr (.inr ha)))
  | createProfile _ hnone =>
    refine ⟨count, hi.profiles rfl rfl ?_ ?_ ?_⟩
    · exact listed_insert_fresh hnone rfl
    · exact listed_insert_fresh hnone rfl
    · exact fun a ha => Finmap.mem_insert.mpr (.inr ha)
  | createInvoice hready => exact ⟨_, hi.invoiced hready⟩
  | setConfig => exact ⟨count, hi.profiles rfl rfl rfl rfl fun _ ha => ha⟩
  | acceptInvoice hready => exact ⟨count, hi.rewritten hready.stored (.accepted _)⟩
  | payInvoice hready => exact ⟨count, hi.rewritten hready.stored (.credited _ _)⟩
  | migrate => exact ⟨count, hi.profiles rfl rfl rfl rfl fun _ ha => ha⟩

end Moves
end Storage

/-! What one move does to an invoice that is stored, and where a stored invoice comes from. -/

/-- How a call rewrites the invoice stored under `k`: its payee accepts it, or pays part of it. -/
inductive Rewrite (s : Storage) (k : U64) : Call → Invoice → Invoice → Prop where
  | accept {info : MessageInfo} {old : Invoice} : AcceptanceReady s info k old →
      Rewrite s k (.execute info (.acceptInvoice k)) old { old with status := .accepted }
  | credit {info : MessageInfo} {b : PaymentBasis} : PaymentReady s info k b →
      Rewrite s k (.execute info (.payInvoice k)) b.invoice (b.invoice.credited b.total)

section Records
variable {env : Env} {s : Storage} {c : Call} {r : Reply} {m : Finmap fun _ : U64 => Invoice}
variable {k : U64} {invoice old new : Invoice}

theorem Rewrite.stored (h : Rewrite s k c old new) : s.invoice.lookup k = some old := by
  cases h with
  | accept hready => exact hready.stored
  | credit hready => exact hready.stored

theorem Rewrite.sameTerms (h : Rewrite s k c old new) : new.SameTerms old := by
  cases h with
  | accept _ => exact .accepted _
  | credit _ => exact .credited _ _

/-- Only the payee of an invoice rewrites it, by accepting it or by paying. -/
theorem Rewrite.by_payee (h : Rewrite s k c old new) : ∃ info, info.sender = old.payeeAddress ∧
    (c = .execute info (.acceptInvoice k) ∨ c = .execute info (.payInvoice k)) := by
  cases h with
  | accept hready => exact ⟨_, hready.payee.symm, .inl rfl⟩
  | credit hready => exact ⟨_, hready.payee.symm, .inr rfl⟩

/-- A stored invoice stays stored, as it was or rewritten. -/
theorem InvoiceMove.record (hm : InvoiceMove env s c r m)
    (hfresh : ∀ id : U64, id.val = (s.invoiceId.getD 0).val + 1 → id ∉ s.invoice)
    (hk : s.invoice.lookup k = some old) : ∃ new, m.lookup k = some new ∧ (new = old ∨ Rewrite s k c old new) := by
  cases hm with
  | keep _ _ => exact ⟨old, hk, .inl rfl⟩
  | @raise info terms b hready =>
    have hne : k ≠ b.id := by
      rintro rfl
      exact hfresh _ hready.id (Finmap.mem_of_lookup_eq_some hk)
    exact ⟨old, lookup_insert_eq_some.mpr (.inr ⟨hne, hk⟩), .inl rfl⟩
  | @accept info invoiceId invoice hready =>
    by_cases hki : k = invoiceId
    · subst hki
      cases hk.symm.trans hready.stored
      exact ⟨_, Finmap.lookup_insert _, .inr (.accept hready)⟩
    · exact ⟨old, lookup_insert_eq_some.mpr (.inr ⟨hki, hk⟩), .inl rfl⟩
  | @credit info invoiceId b hready =>
    by_cases hki : k = invoiceId
    · subst hki
      cases hk.symm.trans hready.stored
      exact ⟨_, Finmap.lookup_insert _, .inr (.credit hready)⟩
    · exact ⟨old, lookup_insert_eq_some.mpr (.inr ⟨hki, hk⟩), .inl rfl⟩

/-- An invoice found after a move was there before, was raised by it, or was rewritten by it. -/
theorem InvoiceMove.origin (hm : InvoiceMove env s c r m) (hk : m.lookup k = some invoice) :
    s.invoice.lookup k = some invoice ∨
    (∃ info terms b, InvoiceReady s info terms b ∧ c = .execute info (.createInvoice terms) ∧
      k = b.id ∧ invoice = terms.raised info.sender b.id) ∨
    ∃ old, Rewrite s k c old invoice := by
  cases hm with
  | keep _ _ => exact .inl hk
  | @raise info terms b hready =>
    rcases lookup_insert_eq_some.mp hk with ⟨hki, rfl⟩ | ⟨_, hk⟩
    · exact .inr (.inl ⟨info, terms, b, hready, rfl, hki, rfl⟩)
    · exact .inl hk
  | @accept info invoiceId old hready =>
    rcases lookup_insert_eq_some.mp hk with ⟨rfl, rfl⟩ | ⟨_, hk⟩
    · exact .inr (.inr ⟨_, .accept hready⟩)
    · exact .inl hk
  | @credit info invoiceId b hready =>
    rcases lookup_insert_eq_some.mp hk with ⟨rfl, rfl⟩ | ⟨_, hk⟩
    · exact .inr (.inr ⟨_, .credit hready⟩)
    · exact .inl hk

end Records

section Laws
variable {env : Env} {h : History} {s : Storage}

theorem indexed (hr : Run (rwa env) h s) : ∃ count, s.Indexed count := by
  refine rwa_invariant (I := fun s => ∃ count, s.Indexed count) ⟨1000000, .start⟩ ?_ hr
  rintro s c r s' ⟨count, hi⟩ hc he
  exact hi.effect hc he

/-- What the counter, the invoices and the profiles tell of each other. -/
structure Storage.InvoiceIndex (s : Storage) (count : U64) : Prop where
  present : s.invoiceId = some count
  keyed : ∀ k invoice, s.invoice.lookup k = some invoice →
    invoice.id = k ∧ invoice.nftId = k ∧ 1000000 < k.val ∧ k ≤ count
  parties : ∀ k invoice, s.invoice.lookup k = some invoice → invoice.from ≠ invoice.payeeAddress ∧
    (∃ c, s.contactInfo.lookup invoice.from = some c) ∧ ∃ c, s.contactInfo.lookup invoice.payeeAddress = some c
  indexed : ∀ a c, s.contactInfo.lookup a = some c →
    ∀ l, (Registers s.invoice (fun invoice => invoice.from = a) l ↔ l = c.generatedInvoices) ∧
      (Registers s.invoice (fun invoice => invoice.payeeAddress = a) l ↔ l = c.assignedInvoices)
  fresh : ∀ id s', getInvoiceId.Returns s id s' → s.invoice.lookup id = none

/-- The invoice index is intact in every state reached. -/
theorem invoice_index (hr : Run (rwa env) h s) : ∃ count, s.InvoiceIndex count := by
  obtain ⟨count, hi⟩ := indexed hr
  refine ⟨count, hi.present, ?_, ?_, ?_, ?_⟩
  · intro k invoice hk
    obtain ⟨hid, hnft⟩ := hi.keyed k invoice hk
    exact ⟨hid, hnft, hi.within k (Finmap.mem_of_lookup_eq_some hk)⟩
  · intro k invoice hk
    obtain ⟨hne, hf, ht⟩ := hi.parties k invoice hk
    exact ⟨hne, Finmap.mem_iff.mp hf, Finmap.mem_iff.mp ht⟩
  · intro a c hc
    have hg := hi.generated a
    have ha := hi.assigned a
    rw [Storage.generatedInvoices, listed_of_lookup _ hc] at hg
    rw [Storage.assignedInvoices, listed_of_lookup _ hc] at ha
    exact fun l => ⟨hg.iff_eq, ha.iff_eq⟩
  · intro id s' hx
    exact Finmap.lookup_eq_none.mpr (hi.fresh ((getInvoiceId_returns s id s').mp hx).1)

theorem invoice_index_of_invoiced :
    (∃ count, (Sample.storage Sample.invoiced).InvoiceIndex count) ∧
    (Sample.storage Sample.invoiced).generatedInvoices Sample.alice = [Sample.invoiceId] :=
  ⟨invoice_index (Sample.run Sample.invoiced (by decide)), by decide⟩

/-- The next id is new in every state reached. -/
theorem next_id_fresh (hr : Run (rwa env) h s) (id : U64) (hid : id.val = (s.invoiceId.getD 0).val + 1) :
    id ∉ s.invoice := by
  obtain ⟨count, hi⟩ := indexed hr
  exact hi.fresh hid

end Laws
end ComdexRwa.Core
