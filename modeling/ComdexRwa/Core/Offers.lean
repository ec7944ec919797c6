import ComdexRwa.Core.Answers
import ComdexRwa.Core.Panics

/-! What an account is shown against what it can do. Each entry of a view stands for one call that goes
through, and a call of that kind about anything that is not shown does not. -/
namespace ComdexRwa.Core
open Foundation Query Txn

section Profiles
variable {env : Env} {h : History} {s s' : Storage} {P : ContactInfo → Prop}

/-- Saving two profiles under their old identities keeps what depends on the identity alone. -/
private theorem forall_profiles_save {m : Finmap (fun _ : Addr => ContactInfo)}
    (same : ∀ c c' : ContactInfo, c'.SameIdentity c → P c → P c') (hp : ∀ a c, m.lookup a = some c → P c)
    {a b : Addr} {c c' d d' : ContactInfo} (hc : m.lookup a = some c) (hid : c'.SameIdentity c)
    (hd : (m.insert a c').lookup b = some d) (hid' : d'.SameIdentity d) :
    ∀ x e, ((m.insert a c').insert b d').lookup x = some e → P e := by
  have hsaved : ∀ x e, (m.insert a c').lookup x = some e → P e :=
    forall_lookup_insert.mpr ⟨same c c' hid (hp a c hc), fun x e _ he => hp x e he⟩
  exact forall_lookup_insert.mpr ⟨same d d' hid' (hsaved b d hd), fun x e _ he => hsaved x e he⟩

/-- What holds of new profiles, and depends on their identity alone, holds of all profiles there ever are. -/
private theorem profiles_satisfy (fresh : ∀ owner name emailId phoneNumber companyName address,
      P (.fresh owner name emailId phoneNumber companyName address))
    (same : ∀ c c' : ContactInfo, c'.SameIdentity c → P c → P c') (hr : Run (rwa env) h s) :
    ∀ a c, s.contactInfo.lookup a = some c → P c := by
  refine rwa_invariant (I := fun s => ∀ a c, s.contactInfo.lookup a = some c → P c) ?_ ?_ hr
  · intro a c hc
    cases hc
  · intro s c r s' hp _ he
    cases he with
    | instantiate => exact hp
    | createRequest hready =>
      refine forall_profiles_save same hp hready.sender ?_ (hready.recipient_saved _) ?_
      · exact ⟨rfl, rfl, rfl, rfl, rfl, rfl, rfl⟩
      · exact ⟨rfl, rfl, rfl, rfl, rfl, rfl, rfl⟩
    | acceptRequest hready =>
      refine forall_profiles_save same hp hready.sender ?_ hready.requester ?_
      · exact ⟨rfl, rfl, rfl, rfl, rfl, rfl, rfl⟩
      · exact ⟨rfl, rfl, rfl, rfl, rfl, rfl, rfl⟩
    | createProfile _ _ => exact forall_lookup_insert.mpr ⟨fresh _ _ _ _ _ _, fun x d _ hd => hp x d hd⟩
    | createInvoice hready =>
      refine forall_profiles_save same hp hready.creator ?_ (hready.counterparty_saved _) ?_
      · exact ⟨rfl, rfl, rfl, rfl, rfl, rfl, rfl⟩
      · exact ⟨rfl, rfl, rfl, rfl, rfl, rfl, rfl⟩
    | setConfig => exact hp
    | acceptInvoice _ => exact hp
    | payInvoice _ => exact hp
    | migrate => exact hp

/-- Profiles are approved when they are opened, and no call changes that. -/
private theorem always_approved (hr : Run (rwa env) h s) (a : Addr) (c : ContactInfo)
    (hc : s.contactInfo.lookup a = some c) : c.kycStatus = .approved := by
  refine profiles_satisfy (P := fun c => c.kycStatus = .approved) ?_ ?_ hr a c hc
  · intros
    rfl
  · exact fun c c' hid hp => hid.kycStatus.trans hp

end Profiles

/-- An invoice in a denomination that is taken, declared to be paid no further than its amount. -/
structure InvoiceTerms.Proper (terms : InvoiceTerms) (s : Storage) : Prop where
  sameDenom : terms.receivable.denom = terms.amountPaid.denom
  covered : terms.amountPaid.amount ≤ terms.receivable.amount
  listed : ∃ config, s.config = some config ∧ config.accepts terms.receivable.denom = true

/-- The views of an account and the calls that they offer to it. -/
structure Offers (env : Env) (s : Storage) (address : Addr) (requests contacts : List ContactResponse)
    (pending : RequestResponse) : Prop where
  requestsGiven : (getPendingContactRequests address).Gives s requests
  contactsGiven : (getAllContacts address).Gives s contacts
  pendingGiven : (getPendingInvoices address).Gives s pending
  grant : ∀ requester, requester ∈ requests.map ContactResponse.address ↔
    ∃ r s', (Core.execute env ⟨address, []⟩ (.acceptRequest requester)).Returns s r s'
  raise : s.idsLeft → ∀ terms : InvoiceTerms, terms.Proper s →
    (terms.payeeAddress ∈ contacts.map ContactResponse.address ↔
      ∃ r s', (Core.execute env ⟨address, []⟩ (.createInvoice terms)).Returns s r s')
  accept : ∀ k funds, (∃ entry ∈ pending.receivedInvoices, entry.invoice.id = k ∧
      entry.invoice.status = .raised) ↔
    ∃ r s', (Core.execute env ⟨address, funds⟩ (.acceptInvoice k)).Returns s r s'
  pay : ∀ k fund, (∃ config, s.config = some config ∧ config.accepts fund.denom = true) →
    ((∃ entry ∈ pending.receivedInvoices, entry.invoice.id = k ∧ entry.invoice.status ≠ .raised ∧
        entry.invoice.amountPaid.amount.val + fund.amount.val ≤ entry.invoice.receivable.amount.val) ↔
      ∃ r s', (Core.execute env ⟨address, [fund]⟩ (.payInvoice k)).Returns s r s')

section Entries
variable {env : Env} {h : History} {s : Storage} {address : Addr}

private theorem addresses_of_describes {list : List Addr} {response : List ContactResponse}
    (hd : List.Forall₂ (Describes s) list response) : response.map ContactResponse.address = list := by
  induction hd with
  | nil => rfl
  | cons hentry _ ih => rw [List.map_cons, hentry.address, ih]

/-- An entry of the received invoices stands for an invoice of the account that is not yet paid. -/
private theorem received_entry_iff {count : U64} (hi : s.Indexed count) {out : List InvoiceResponse}
    (hl : ListedInvoices s (fun status => status ≠ .paid) Invoice.from (s.assignedInvoices address) out)
    (k : U64) (P : Invoice → Prop) : (∃ entry ∈ out, entry.invoice.id = k ∧ P entry.invoice) ↔
      ∃ invoice, s.invoice.lookup k = some invoice ∧ invoice.payeeAddress = address ∧ invoice.status ≠ .paid ∧
        P invoice := by
  constructor
  · intro hx
    obtain ⟨entry, hentry, rfl, hp⟩ := hx
    obtain ⟨j, hj, hstored, hkeep⟩ := (hl.mem_iff _).mp ⟨entry, hentry, rfl⟩
    obtain ⟨invoice, hinvoice, hparty⟩ := ((hi.assigned address).mem_iff j).mp hj
    cases hinvoice.symm.trans hstored
    rw [(hi.keyed j _ hstored).1]
    exact ⟨_, hstored, hparty, by simpa using hkeep, hp⟩
  · intro hx
    obtain ⟨invoice, hstored, hparty, hunpaid, hp⟩ := hx
    have hmem := ((hi.assigned address).mem_iff k).mpr ⟨invoice, hstored, hparty⟩
    obtain ⟨entry, hentry, rfl⟩ := (hl.mem_iff invoice).mpr ⟨k, hmem, hstored, by simpa using hunpaid⟩
    exact ⟨entry, hentry, (hi.keyed k _ hstored).1, hp⟩

private theorem acceptRequest_offered (hr : Run (rwa env) h s) (requester : Addr) :
    requester ∈ s.receivedRequests address ↔
      ∃ r s', (Core.execute env ⟨address, []⟩ (.acceptRequest requester)).Returns s r s' := by
  constructor
  · intro hm
    obtain ⟨c, hc⟩ := lookup_of_mem_listed hm
    rw [Storage.receivedRequests, listed_of_lookup _ hc] at hm
    have hfunds : (⟨address, []⟩ : MessageInfo).funds = [] := rfl
    exact acceptRequest_returns_of_received (notebooks_reciprocal hr) hfunds hc hm
  · intro hx
    obtain ⟨r, s', hx⟩ := hx
    obtain ⟨_, c, d, hready, _⟩ := (acceptRequest_returns ⟨address, []⟩ requester s r s').mp hx
    rw [Storage.receivedRequests, listed_of_lookup _ hready.sender]
    exact hready.received

/-- Between contacts, the guards are passed by every call with the right terms. -/
theorem gated_of_contact (hr : Run (rwa env) h s) {info : MessageInfo} {terms : InvoiceTerms} (hfunds : info.funds = [])
    (hdenom : terms.receivable.denom = terms.amountPaid.denom)
    (hlisted : ∃ config, s.config = some config ∧ config.accepts terms.receivable.denom = true)
    (hm : terms.payeeAddress ∈ s.contacts info.sender) : ∃ config c d, InvoiceGated s info terms config c d := by
  have hn := notebooks_reciprocal hr
  have hmutual : info.sender ∈ s.contacts terms.payeeAddress := hn.contacts_iff.mp hm
  have hne : info.sender ≠ terms.payeeAddress := by
    intro hsame
    rw [hsame] at hm
    exact (hn.alone terms.payeeAddress).2.2 hm
  obtain ⟨c, hc⟩ := lookup_of_mem_listed hm
  obtain ⟨d, hd⟩ := lookup_of_mem_listed hmutual
  obtain ⟨config, hconfig, hlisted⟩ := hlisted
  rw [Storage.contacts, listed_of_lookup _ hc] at hm
  have hverified : d.kycStatus ≠ .unverified := by
    rw [always_approved hr _ d hd]
    exact fun hv => (nomatch hv)
  exact ⟨config, c, d, hfunds, hne, hdenom, hconfig, hlisted, hc, always_approved hr _ c hc, hm, hd, hverified⟩

/-- The guards leave only the terms and the counter to decide. -/
theorem createInvoice_offered (hr : Run (rwa env) h s) (address : Addr) (hids : s.idsLeft) {terms : InvoiceTerms}
    (hproper : terms.Proper s) : terms.payeeAddress ∈ s.contacts address ↔
      ∃ r s', (Core.execute env ⟨address, []⟩ (.createInvoice terms)).Returns s r s' := by
  constructor
  · intro hm
    have hfunds : (⟨address, []⟩ : MessageInfo).funds = [] := rfl
    obtain ⟨config, c, d, hgated⟩ := gated_of_contact hr hfunds hproper.sameDenom hproper.listed hm
    exact hgated.returns hids hproper.covered
  · intro hx
    obtain ⟨r, s', hx⟩ := hx
    obtain ⟨b, hready, _⟩ := (createInvoice_returns env ⟨address, []⟩ terms s r s').mp hx
    rw [Storage.contacts, listed_of_lookup _ hready.creator]
    exact hready.contact

private theorem acceptInvoice_offered (k : U64) (funds : List Coin) :
    (∃ invoice, s.invoice.lookup k = some invoice ∧ invoice.payeeAddress = address ∧ invoice.status ≠ .paid ∧
        invoice.status = .raised) ↔
      ∃ r s', (Core.execute env ⟨address, funds⟩ (.acceptInvoice k)).Returns s r s' := by
  constructor
  · intro hx
    obtain ⟨invoice, hstored, hparty, _, hraised⟩ := hx
    exact ⟨_, _, (acceptInvoice_returns ⟨address, funds⟩ k s _ _).mpr ⟨rfl, invoice, ⟨hstored, hparty, hraised⟩, rfl⟩⟩
  · intro hx
    obtain ⟨r, s', hx⟩ := hx
    obtain ⟨_, invoice, hready, _⟩ := (acceptInvoice_returns ⟨address, funds⟩ k s r s').mp hx
    refine ⟨invoice, hready.stored, hready.payee, ?_, hready.raised⟩
    rw [hready.raised]
    exact fun hp => (nomatch hp)

private theorem payInvoice_offered (k : U64) {fund : Coin}
    (hlisted : ∃ config, s.config = some config ∧ config.accepts fund.denom = true) :
    (∃ invoice, s.invoice.lookup k = some invoice ∧ invoice.payeeAddress = address ∧ invoice.status ≠ .paid ∧
        invoice.status ≠ .raised ∧ invoice.amountPaid.amount.val + fund.amount.val ≤ invoice.receivable.amount.val) ↔
      ∃ r s', (Core.execute env ⟨address, [fund]⟩ (.payInvoice k)).Returns s r s' := by
  constructor
  · intro hx
    obtain ⟨invoice, hstored, hparty, hunpaid, haccepted, hwithin⟩ := hx
    obtain ⟨config, hconfig, hlisted⟩ := hlisted
    have hready : PaymentReady s ⟨address, [fund]⟩ k
        ⟨fund, config, invoice, ⟨_, lt_of_le_of_lt hwithin invoice.receivable.amount.isLt⟩⟩ :=
      ⟨rfl, hconfig, hlisted, hstored, hparty, haccepted, hunpaid, rfl, hwithin⟩
    exact ⟨_, _, (payInvoice_returns ⟨address, [fund]⟩ k s _ _).mpr ⟨_, hready, rfl, rfl⟩⟩
  · intro hx
    obtain ⟨r, s', hx⟩ := hx
    obtain ⟨b, hready, _⟩ := (payInvoice_returns ⟨address, [fund]⟩ k s r s').mp hx
    obtain rfl : fund = b.fund := List.singleton_inj.mp hready.single
    refine ⟨b.invoice, hready.stored, hready.payee, hready.unpaid, hready.accepted, ?_⟩
    rw [← hready.total]
    exact hready.within

/-- In every state reached, for every account, the views show exactly what the account can do: whom it can take
as a contact, whom it can send an invoice, which invoices it can accept, and how much it can pay of them. -/
theorem views_offer (hr : Run (rwa env) h s) (address : Addr) :
    ∃ requests contacts pending, Offers env s address requests contacts pending := by
  have hn := notebooks_reciprocal hr
  obtain ⟨count, hi⟩ := indexed hr
  obtain ⟨⟨requests, hrequests, hd⟩, -, contacts, hcontacts, hd'⟩ := contacts_given hr address
  obtain ⟨pending, hpending, _, hreceived⟩ := viewInvoices_gives hr (fun status => status ≠ .paid) address
  refine ⟨requests, contacts, pending, hrequests, hcontacts, hpending, ?_, ?_, ?_, ?_⟩
  · intro requester
    rw [addresses_of_describes hd]
    exact acceptRequest_offered hr requester
  · intro hids terms hproper
    rw [addresses_of_describes hd']
    exact createInvoice_offered hr address hids hproper
  · intro k funds
    rw [received_entry_iff hi hreceived k fun invoice => invoice.status = .raised]
    exact acceptInvoice_offered k funds
  · intro k fund hlisted
    rw [received_entry_iff hi hreceived k fun invoice => invoice.status ≠ .raised ∧
      invoice.amountPaid.amount.val + fund.amount.val ≤ invoice.receivable.amount.val]
    exact payInvoice_offered k hlisted

end Entries

/-- Bob can still pay sixty dollars. -/
theorem views_offer_of_begun :
    ∃ requests contacts pending, Offers Sample.env (Sample.storage Sample.begun) Sample.bob requests contacts pending :=
  views_offer (Sample.run Sample.begun (by decide)) Sample.bob

end ComdexRwa.Core
