import ComdexRwa.Core.InvoiceLife
import ComdexRwa.Core.Consent
import ComdexRwa.Core.ProfileFrame
import ComdexRwa.Core.Query

/-! What the queries over invoices give in the states that runs reach: the two views of an account,
which share its invoices out between them, and the id that is called the latest. -/
namespace ComdexRwa.Core
open Foundation Query

/-- Every stored invoice that meets a condition, once and in the order of the ids, each with the
profile of its other party. -/
structure InvoiceView (s : Storage) (p : Invoice → Prop) (party : Invoice → Addr) (out : List InvoiceResponse) :
    Prop where
  once : ∀ k invoice, s.invoice.lookup k = some invoice → p invoice →
    (out.map InvoiceResponse.invoice).count invoice = 1
  only : ∀ entry ∈ out, p entry.invoice ∧ ∃ k, s.invoice.lookup k = some entry.invoice
  sorted : out.Pairwise fun x y => x.invoice.id < y.invoice.id
  contact : ∀ entry ∈ out, ∃ c, s.contactInfo.lookup (party entry.invoice) = some c ∧
    entry.contact = ⟨c.name, party entry.invoice, c.companyName⟩

/-- The two views of an account: what it raised and what was raised on it, paid or not. -/
structure InvoicePartition (s : Storage) (address : Addr) (pending executed : RequestResponse) : Prop where
  pendingGiven : (getPendingInvoices address).Gives s pending
  executedGiven : (getExecutedInvoices address).Gives s executed
  pendingSent : InvoiceView s (fun invoice => invoice.from = address ∧ invoice.status ≠ .paid)
    Invoice.payeeAddress pending.sentInvoices
  executedSent : InvoiceView s (fun invoice => invoice.from = address ∧ invoice.status = .paid)
    Invoice.payeeAddress executed.sentInvoices
  pendingReceived : InvoiceView s (fun invoice => invoice.payeeAddress = address ∧ invoice.status ≠ .paid)
    Invoice.from pending.receivedInvoices
  executedReceived : InvoiceView s (fun invoice => invoice.payeeAddress = address ∧ invoice.status = .paid)
    Invoice.from executed.receivedInvoices

section Views
variable {env : Env} {h : History} {s : Storage} {keep : Status → Bool}

/-- Listing the register of one party shows that party's invoices. -/
private theorem ListedInvoices.view {side party : Invoice → Addr} {address : Addr} {ids : List U64}
    {out : List InvoiceResponse}
    {p : Invoice → Prop} (hl : ListedInvoices s keep party ids out)
    (hreg : Registers s.invoice (fun invoice => side invoice = address) ids)
    (hp : ∀ invoice, p invoice ↔ side invoice = address ∧ keep invoice.status = true) : InvoiceView s p party out := by
  have hnodup : (out.map InvoiceResponse.invoice).Nodup := by
    apply List.pairwise_map.mpr
    apply hl.sorted.imp
    intro x y hlt heq
    rw [heq] at hlt
    exact lt_irrefl _ hlt
  refine ⟨fun k invoice hk hpi => ?_, fun entry hentry => ?_, hl.sorted, hl.contact⟩
  · obtain ⟨hside, hkeep⟩ := (hp invoice).mp hpi
    have hmem := (hl.mem_iff invoice).mpr ⟨k, (hreg.mem_iff k).mpr ⟨invoice, hk, hside⟩, hk, hkeep⟩
    exact List.count_eq_one_of_mem hnodup (List.mem_map.mpr hmem)
  · obtain ⟨k, hk, hstored, hkeep⟩ := (hl.mem_iff _).mp ⟨entry, hentry, rfl⟩
    obtain ⟨i, hi, hside⟩ := (hreg.mem_iff k).mp hk
    cases hstored.symm.trans hi
    exact ⟨(hp _).mpr ⟨hside, hkeep⟩, k, hstored⟩

theorem viewInvoices_gives (hr : Run (rwa env) h s) (keep : Status → Bool) (address : Addr) :
    ∃ view, (viewInvoices keep address).Gives s view ∧
      ListedInvoices s keep Invoice.payeeAddress (s.generatedInvoices address) view.sentInvoices ∧
      ListedInvoices s keep Invoice.from (s.assignedInvoices address) view.receivedInvoices := by
  obtain ⟨count, hi⟩ := indexed hr
  have hkeyed (k : U64) (invoice : Invoice) (hk : s.invoice.lookup k = some invoice) : invoice.id = k :=
    (hi.keyed k invoice hk).1
  have hprofile (a : Addr) (ha : a ∈ s.contactInfo) : ∃ c, s.contactInfo.lookup a = some c ∧ c.owner = a := by
    obtain ⟨c, hc⟩ := Finmap.mem_iff.mp ha
    exact ⟨c, hc, owned hr a c hc⟩
  obtain ⟨sent, hgives, hlist⟩ : ∃ out, Gives _ s out ∧ ListedInvoices s keep _ _ out :=
    listInvoices_gives (hi.generated address).sorted hkeyed fun k invoice hk =>
      hprofile invoice.payeeAddress (hi.parties k invoice hk).2.2
  obtain ⟨received, hgives', hlist'⟩ : ∃ out, Gives _ s out ∧ ListedInvoices s keep _ _ out :=
    listInvoices_gives (hi.assigned address).sorted hkeyed fun k invoice hk =>
      hprofile invoice.from (hi.parties k invoice hk).2.1
  cases hc : s.contactInfo.lookup address with
  | none =>
    refine ⟨⟨[], []⟩, ?_, ?_, ?_⟩
    · rw [viewInvoices, gives_mayLoad_bind, contactInfos_read, hc, gives_pure]
    · rw [Storage.generatedInvoices, listed, hc]
      exact .nil
    · rw [Storage.assignedInvoices, listed, hc]
      exact .nil
  | some c =>
    refine ⟨⟨sent, received⟩, ?_, hlist, hlist'⟩
    rw [Storage.generatedInvoices, listed_of_lookup _ hc] at hgives
    rw [Storage.assignedInvoices, listed_of_lookup _ hc] at hgives'
    rw [viewInvoices, gives_mayLoad_bind, contactInfos_read, hc]
    simp only []
    rw [gives_bind_of hgives, gives_bind_of hgives', gives_pure]

/-- The pending and the executed view share out the invoices of every account, in every state reached. -/
theorem invoice_partition (hr : Run (rwa env) h s) (address : Addr) :
    ∃ pending executed, InvoicePartition s address pending executed := by
  obtain ⟨count, hi⟩ := indexed hr
  obtain ⟨pending, hpending, hsent, hreceived⟩ :=
    viewInvoices_gives hr (fun status => status ≠ .paid) address
  obtain ⟨executed, hexecuted, hsent', hreceived'⟩ :=
    viewInvoices_gives hr (fun status => status = .paid) address
  refine ⟨pending, executed, hpending, hexecuted, ?_, ?_, ?_, ?_⟩
  · exact hsent.view (hi.generated address) fun invoice => by simp
  · exact hsent'.view (hi.generated address) fun invoice => by simp
  · exact hreceived.view (hi.assigned address) fun invoice => by simp
  · exact hreceived'.view (hi.assigned address) fun invoice => by simp

end Views

/-! The latest id. -/

/-- The id `id` is reported as the latest, and belongs to an invoice with no larger key beside it. -/
structure LatestPoints (s : Storage) (id : U64) : Prop where
  reported : getLatestInvoiceId.Gives s id
  found : ∃ invoice, (getInvoice id).Gives s invoice ∧ invoice.id = id
  largest : ∀ k ∈ s.invoice, k ≤ id

/-- The id `id` belongs to an invoice with no larger key beside it, but the one reported is the next,
under which there is none. -/
structure LatestAhead (s : Storage) (id : U64) : Prop where
  found : ∃ invoice, (getInvoice id).Gives s invoice ∧ invoice.id = id
  largest : ∀ k ∈ s.invoice, k ≤ id
  reported : ∃ next, next.val = id.val + 1 ∧ getLatestInvoiceId.Gives s next ∧
    (getInvoice next).Fails s (.error (.notFound "Invoice" (.map "invoice" (.u64 next))))

/-- The counter is one past the largest key. -/
structure Storage.Topped (s : Storage) (id : U64) : Prop where
  counter : ∃ next, s.invoiceId = some next ∧ next.val = id.val + 1
  stored : id ∈ s.invoice
  largest : ∀ k ∈ s.invoice, k ≤ id

section Latest
variable {env : Env} {h h₁ h₂ : History} {s s' : Storage} {e : CallEvent} {id : U64} {a b : Addr}

/-- The event that raises an invoice stores it last, and moves the counter past it. -/
private theorem topped_of_raises (hr : Run (rwa env) (h₁ ++ e :: h₂) s) (he : e.Raises id a b) :
    e.after.Topped id := by
  obtain ⟨info, terms, r, hc, hok, _, _, hnone, invoice, hsome⟩ := he
  have heff := effect_of_reply hr (List.mem_append_right _ List.mem_cons_self) hok
  rcases rwa_before hr with ⟨_, hopen⟩ | ⟨hbefore, _⟩
  · rw [hc] at hopen
    cases hopen
  · obtain ⟨count, hi⟩ := indexed hbefore
    rw [hc] at heff
    generalize e.after = s' at heff hsome
    cases heff with
    | @createInvoice _ _ basis hready =>
      have hid : id = basis.id := by
        rcases lookup_insert_eq_some.mp hsome with ⟨hid, _⟩ | ⟨_, hold⟩
        · exact hid
        · cases hold.symm.trans hnone
      subst hid
      refine ⟨⟨basis.next, rfl, hready.next⟩, Finmap.mem_insert.mpr (.inl rfl), fun k hk => ?_⟩
      rcases Finmap.mem_insert.mp hk with rfl | hk
      · exact le_refl _
      · exact le_of_lt (hi.lt_of_next hready.id k hk)

/-- A call that raises no invoice leaves the counter and the keys alone. -/
private theorem Storage.Topped.kept {c : Call} {r : Reply} (ht : s.Topped id) (hc : c.opens = false)
    (heff : Effect env s c r s') (hno : ∀ k a b, ¬ CallEvent.Raises ⟨s, c, .ok r, s'⟩ k a b) : s'.Topped id := by
  cases heff with
  | instantiate => cases hc
  | createRequest _ => exact ⟨ht.counter, ht.stored, ht.largest⟩
  | acceptRequest _ => exact ⟨ht.counter, ht.stored, ht.largest⟩
  | createProfile _ _ => exact ⟨ht.counter, ht.stored, ht.largest⟩
  | @createInvoice info terms basis hready =>
    obtain ⟨next, hnext, hval⟩ := ht.counter
    have hfree : basis.id ∉ s.invoice := by
      intro hmem
      have hid := hready.id
      have hle := (Word.le_iff _ _).mp (ht.largest basis.id hmem)
      rw [hnext] at hid
      change basis.id.val = next.val + 1 at hid
      omega
    exact (hno basis.id _ _ (raises_invoiced hfree)).elim
  | setConfig => exact ⟨ht.counter, ht.stored, ht.largest⟩
  | acceptInvoice hready =>
    have hmem := Finmap.mem_of_lookup_eq_some hready.stored
    exact ⟨ht.counter, (mem_insert_of_mem hmem).mpr ht.stored,
      fun k hk => ht.largest k ((mem_insert_of_mem hmem).mp hk)⟩
  | payInvoice hready =>
    have hmem := Finmap.mem_of_lookup_eq_some hready.stored
    exact ⟨ht.counter, (mem_insert_of_mem hmem).mpr ht.stored,
      fun k hk => ht.largest k ((mem_insert_of_mem hmem).mp hk)⟩
  | migrate _ _ _ => exact ⟨ht.counter, ht.stored, ht.largest⟩

/-- From one invoice to the next, the counter stays one past the key of the last. -/
private theorem topped (hr : Run (rwa env) (h₁ ++ e :: h₂) s) (he : e.Raises id a b)
    (hno : ∀ x ∈ h₂, ∀ k a b, ¬ x.Raises k a b) : s.Topped id := by
  refine Run.since (I := fun s => s.Topped id) (Q := fun x => ∀ k a b, ¬ CallEvent.Raises x k a b)
    (topped_of_raises hr he) ?_ hr hno
  intro s c r s' ht hc hx hq
  exact ht.kept hc ((dispatch_returns env c s r s').mp hx) hq

private theorem Storage.Topped.ahead (hr : Run (rwa env) h s) (ht : s.Topped id) :
    ¬ LatestPoints s id ∧ LatestAhead s id := by
  obtain ⟨next, hnext, hval⟩ := ht.counter
  have hreported : getLatestInvoiceId.Gives s next := (gives_loadItem invoiceIds s next).mpr hnext
  have hnone : s.invoice.lookup next = none := by
    apply Finmap.lookup_eq_none.mpr
    intro hmem
    have hle := (Word.le_iff _ _).mp (ht.largest next hmem)
    omega
  constructor
  · intro hl
    have heq := congrArg Word.val (hl.reported.unique hreported)
    omega
  · obtain ⟨count, hi⟩ := indexed hr
    obtain ⟨invoice, hk⟩ := Finmap.mem_iff.mp ht.stored
    refine ⟨⟨invoice, (gives_load invoices id s invoice).mpr hk, (hi.keyed id invoice hk).1⟩, ht.largest,
      next, hval, hreported, fails_load invoices next s hnone⟩

/-- After every `CreateInvoice` that returns, and until the next invoice is raised, the id reported is
not that of the invoice stored: it is the one after, and no invoice has it. -/
theorem latest_id_ahead (hr : Run (rwa env) (h₁ ++ e :: h₂) s) {info : MessageInfo} {terms : InvoiceTerms} {r : Reply}
    (hc : e.call = .execute info (.createInvoice terms)) (hok : e.reply = .ok r)
    (hno : ∀ x ∈ h₂, ∀ k a b, ¬ x.Raises k a b) :
    ∃ id, e.Raises id info.sender terms.payeeAddress ∧ ¬ LatestPoints s id ∧ LatestAhead s id := by
  obtain ⟨id, hraises⟩ := raises_of_reply hr (List.mem_append_right _ List.mem_cons_self) hc hok
  exact ⟨id, hraises, (topped hr hraises hno).ahead hr⟩

end Latest

theorem invoice_partition_of_settled :
    (∃ pending executed, InvoicePartition (Sample.storage Sample.settled) Sample.alice pending executed) ∧
    (Sample.storage Sample.settled).generatedInvoices Sample.alice = [Sample.invoiceId] :=
  ⟨invoice_partition (Sample.run Sample.settled (by decide)) Sample.alice, by decide⟩

namespace Sample

/-- The call that raises the invoice of a hundred dollars, and the run that ends with it. -/
def raising : Call := call alice (.createInvoice (terms 0))

def raised : List Call := configured ++ [raising]

def raisingEvent : CallEvent := (rwa env).transact (storage configured) raising

private theorem run_raised : Run (rwa env) (history configured ++ raisingEvent :: []) (storage raised) :=
  run raised (by decide)

end Sample

theorem latest_id_ahead_of_raised : ∃ id, Sample.raisingEvent.Raises id Sample.alice Sample.bob ∧
    ¬ LatestPoints (Sample.storage Sample.raised) id ∧ LatestAhead (Sample.storage Sample.raised) id :=
  latest_id_ahead Sample.run_raised rfl rfl fun _ hx => (nomatch hx)

/-- The first id is 1000001, the one reported is 1000002. -/
theorem latest_id_missed :
    Run (rwa Sample.env) (Sample.history Sample.raised) (Sample.storage Sample.raised) ∧
    (Sample.storage Sample.raised).invoice.keys = {1000001} ∧
    getLatestInvoiceId.Gives (Sample.storage Sample.raised) 1000002 ∧
    (getInvoice 1000002).Fails (Sample.storage Sample.raised)
      (.error (.notFound "Invoice" (.map "invoice" (.u64 1000002)))) ∧
    ¬ LatestPoints (Sample.storage Sample.raised) 1000001 := by
  have hreported : getLatestInvoiceId.Gives (Sample.storage Sample.raised) 1000002 :=
    (gives_loadItem invoiceIds _ _).mpr (by decide)
  refine ⟨Sample.run Sample.raised (by decide), by decide, hreported, fails_load invoices _ _ (by decide), ?_⟩
  intro hl
  exact absurd (hl.reported.unique hreported) (by decide)

end ComdexRwa.Core
