import ComdexRwa.Core.Acceptance

/-! Calls that do not return: which of them are refused with an error, and which panic.
A handler panics on a word out of range, past all of its guards. -/
namespace ComdexRwa.Core
open Foundation Txn

/-- The guards of `createInvoice`, all of which are checked before it computes anything. -/
structure InvoiceGated (s : Storage) (info : MessageInfo) (terms : InvoiceTerms) (config : Config)
    (sender receiver : ContactInfo) : Prop where
  noFunds : info.funds = []
  distinct : info.sender ≠ terms.payeeAddress
  sameDenom : terms.receivable.denom = terms.amountPaid.denom
  configured : s.config = some config
  listed : config.accepts terms.receivable.denom = true
  creator : s.contactInfo.lookup info.sender = some sender
  creatorApproved : sender.kycStatus = .approved
  contact : terms.payeeAddress ∈ sender.contacts
  counterparty : s.contactInfo.lookup terms.payeeAddress = some receiver
  counterpartyVerified : receiver.kycStatus ≠ .unverified

/-- The counter leaves room for the two steps that one invoice takes it. -/
def Storage.idsLeft (s : Storage) : Prop := (s.invoiceId.getD 0).val < 2 ^ 64 - 2

instance (s : Storage) : Decidable s.idsLeft := inferInstanceAs (Decidable (_ < _))

section Creation
variable {env : Env} {s s' : Storage} {info : MessageInfo} {terms : InvoiceTerms} {config : Config}
variable {sender receiver : ContactInfo}

private theorem InvoiceReady.gated {b : InvoiceBasis} (hready : InvoiceReady s info terms b) :
    InvoiceGated s info terms b.config b.creator b.counterparty :=
  ⟨hready.noFunds, hready.distinct, hready.sameDenom, hready.configured, hready.listed, hready.creator,
    hready.creatorApproved, hready.contact, hready.counterparty, hready.counterpartyVerified⟩

/-- Past the guards, the amounts and the counter alone decide. -/
theorem InvoiceGated.returns (hg : InvoiceGated s info terms config sender receiver) (hids : s.idsLeft)
    (hle : terms.amountPaid.amount ≤ terms.receivable.amount) :
    ∃ r s', (createInvoice env info terms).Returns s r s' := by
  unfold Storage.idsLeft at hids
  have hfirst : (s.invoiceId.getD 0).val + 1 < 2 ^ 64 := by omega
  have hsecond : (s.invoiceId.getD 0).val + 1 + 1 < 2 ^ 64 := by omega
  have hready : InvoiceReady s info terms ⟨config, sender, receiver, ⟨_, hfirst⟩, ⟨_, hsecond⟩⟩ :=
    ⟨hg.noFunds, hg.distinct, hg.sameDenom, hg.configured, hg.listed, hg.creator, hg.creatorApproved,
      hg.contact, hg.counterparty, hg.counterpartyVerified, hle, rfl, rfl⟩
  exact ⟨_, _, (createInvoice_returns env info terms s _ _).mpr ⟨_, hready, rfl, rfl⟩⟩

/-- The two steps of the counter, the second from where the first has led. -/
private theorem counter_overflows (s : Storage) :
    ((s.invoiceId.getD 0).checkedAdd 1 = none ∨
      ∃ id, (s.invoiceId.getD 0).checkedAdd 1 = some id ∧ id.checkedAdd 1 = none) ↔ ¬ s.idsLeft := by
  have hone : (1 : U64).val = 1 := rfl
  simp only [Word.checkedAdd_eq_none, Word.checkedAdd_eq_some, hone, Storage.idsLeft]
  constructor
  · intro h
    rcases h with h | ⟨id, hid, h⟩
    · omega
    · omega
  · intro h
    by_cases hfirst : (s.invoiceId.getD 0).val + 1 < 2 ^ 64
    · exact .inr ⟨⟨_, hfirst⟩, rfl, by change 2 ^ 64 ≤ (s.invoiceId.getD 0).val + 1 + 1; omega⟩
    · exact .inl (by omega)

theorem createInvoice_panics : (createInvoice env info terms).Panics s ↔
    ∃ config sender receiver, InvoiceGated s info terms config sender receiver ∧
      (terms.receivable.amount < terms.amountPaid.amount ∨ ¬ s.idsLeft) := by
  have hcounter := counter_overflows s
  have hsub := Word.checkedSub_eq_none terms.receivable.amount terms.amountPaid.amount
  simp only [createInvoice, getInvoiceId, bind_assoc, panics_ensure_bind, Item.panics_load_bind,
    Item.panics_mayLoad_bind, Table.panics_mayLoad_bind, panics_okOr_bind, panics_expect_bind,
    Table.panics_save_bind, Item.panics_save_bind, panics_pure, configItem_read, contactInfoMap_read,
    contactInfoMap_write, invoiceMap_write, invoiceIdItem_read, and_false, exists_false, or_false, hcounter, hsub]
  constructor
  · intro hx
    obtain ⟨hf, hd, hs, config, hc, hl, sender, hp, hk, hm, receiver, hq, hv, hx⟩ := hx
    refine ⟨config, sender, receiver, ⟨hf, hd, hs, hc, hl, hp, hk, hm, hq, hv⟩, ?_⟩
    rcases hx with hlt | ⟨_, _, hids⟩
    · exact .inl hlt
    · exact .inr hids
  · intro hx
    obtain ⟨config, sender, receiver, ⟨hf, hd, hs, hc, hl, hp, hk, hm, hq, hv⟩, hx⟩ := hx
    refine ⟨hf, hd, hs, config, hc, hl, sender, hp, hk, hm, receiver, hq, hv, ?_⟩
    by_cases hlt : terms.receivable.amount < terms.amountPaid.amount
    · exact .inl hlt
    · refine .inr ⟨_, (Word.checkedSub_eq_some _ _ _).mpr ⟨not_lt.mp hlt, rfl⟩, ?_⟩
      exact hx.resolve_left hlt

/-- An error is answered before anything is written. -/
private theorem createInvoice_error {e : ContractError} (h : (createInvoice env info terms).Aborts s (.error e) s') :
    s' = s := by
  simp only [createInvoice, getInvoiceId, bind_assoc, aborts_ensure_bind, Item.aborts_load_bind,
    Item.aborts_mayLoad_bind, Table.aborts_mayLoad_bind, aborts_okOr_bind, aborts_expect_bind,
    Table.aborts_save_bind, Item.aborts_save_bind, aborts_pure, configItem_read, contactInfoMap_read,
    invoiceIdItem_read, reduceCtorEq, false_and, and_false, exists_false, or_false] at h
  grind

/-- What should let an invoice be raised. -/
structure InvoiceAcceptable (s : Storage) (info : MessageInfo) (terms : InvoiceTerms) : Prop where
  noFunds : info.funds = []
  distinct : info.sender ≠ terms.payeeAddress
  sameDenom : terms.receivable.denom = terms.amountPaid.denom
  listed : ∃ config, s.config = some config ∧ config.accepts terms.receivable.denom = true
  creator : ∃ sender, s.contactInfo.lookup info.sender = some sender ∧ sender.kycStatus = .approved ∧
    terms.payeeAddress ∈ sender.contacts
  counterparty : ∃ receiver, s.contactInfo.lookup terms.payeeAddress = some receiver ∧
    receiver.kycStatus = .approved
  covered : terms.amountPaid.amount ≤ terms.receivable.amount

/-- Acceptance asks two things more than the guards do. -/
private theorem acceptable_iff : InvoiceAcceptable s info terms ↔ ∃ config sender receiver,
    InvoiceGated s info terms config sender receiver ∧ receiver.kycStatus = .approved ∧
      terms.amountPaid.amount ≤ terms.receivable.amount := by
  constructor
  · intro h
    obtain ⟨config, hc, hl⟩ := h.listed
    obtain ⟨sender, hp, hk, hm⟩ := h.creator
    obtain ⟨receiver, hq, hv⟩ := h.counterparty
    refine ⟨config, sender, receiver, ⟨h.noFunds, h.distinct, h.sameDenom, hc, hl, hp, hk, hm, hq, ?_⟩, hv, h.covered⟩
    rw [hv]
    exact fun hv => (nomatch hv)
  · intro h
    obtain ⟨config, sender, receiver, hg, hv, hle⟩ := h
    exact ⟨hg.noFunds, hg.distinct, hg.sameDenom, ⟨config, hg.configured, hg.listed⟩,
      ⟨sender, hg.creator, hg.creatorApproved, hg.contact⟩, ⟨receiver, hg.counterparty, hv⟩, hle⟩

/-- The handler raises what is acceptable, and answers everything else with an error and no change. -/
structure InvoiceVerdict (env : Env) (s : Storage) (info : MessageInfo) (terms : InvoiceTerms) : Prop where
  accepted_iff : (∃ r s', (Core.execute env info (.createInvoice terms)).Returns s r s') ↔
    InvoiceAcceptable s info terms
  refused : ¬ InvoiceAcceptable s info terms →
    ∃ e, (Core.execute env info (.createInvoice terms)).Aborts s (.error e) s

/-- What passes the guards is acceptable, in the two respects that they leave open. -/
def Scrupulous (s : Storage) (info : MessageInfo) (terms : InvoiceTerms) : Prop :=
  ∀ config sender receiver, InvoiceGated s info terms config sender receiver →
    receiver.kycStatus = .approved ∧ terms.amountPaid.amount ≤ terms.receivable.amount

private theorem acceptable_of_returns (hs : Scrupulous s info terms) {r : Reply}
    (hx : (createInvoice env info terms).Returns s r s') : InvoiceAcceptable s info terms := by
  obtain ⟨b, hready, _⟩ := (createInvoice_returns env info terms s r s').mp hx
  obtain ⟨hv, hle⟩ := hs _ _ _ hready.gated
  exact acceptable_iff.mpr ⟨_, _, _, hready.gated, hv, hle⟩

private theorem InvoiceVerdict.scrupulous (hids : s.idsLeft) (hv : InvoiceVerdict env s info terms) :
    Scrupulous s info terms := by
  intro config sender receiver hg
  have hacc : InvoiceAcceptable s info terms := by
    by_contra hno
    obtain ⟨e, ha⟩ := hv.refused hno
    by_cases hle : terms.amountPaid.amount ≤ terms.receivable.amount
    · exact hno (hv.accepted_iff.mp (hg.returns hids hle))
    · obtain ⟨t, hp⟩ := createInvoice_panics.mpr ⟨config, sender, receiver, hg, .inl (not_le.mp hle)⟩
      cases (hp.unique ha).1
  obtain ⟨receiver', hq, hk⟩ := hacc.counterparty
  cases hq.symm.trans hg.counterparty
  exact ⟨hk, hacc.covered⟩

/-- The verdict is right exactly where the guards leave nothing open, whatever is stored. -/
theorem invoice_verdict_iff (env : Env) (s : Storage) (info : MessageInfo) (terms : InvoiceTerms)
    (hids : s.idsLeft) : InvoiceVerdict env s info terms ↔ Scrupulous s info terms := by
  refine ⟨InvoiceVerdict.scrupulous hids, fun hs => ⟨⟨?_, ?_⟩, fun hno => ?_⟩⟩
  · intro hx
    obtain ⟨r, s', hx⟩ := hx
    exact acceptable_of_returns hs hx
  · intro hacc
    obtain ⟨config, sender, receiver, hg, _, hle⟩ := acceptable_iff.mp hacc
    exact hg.returns hids hle
  · change ∃ e, (createInvoice env info terms).Aborts s (.error e) s
    rcases (createInvoice env info terms).returns_or_aborts s with ⟨r, s', hx⟩ | ⟨e | _, s', hx⟩
    · exact (hno (acceptable_of_returns hs hx)).elim
    · cases createInvoice_error hx
      exact ⟨e, hx⟩
    · obtain ⟨config, sender, receiver, hg, hcut⟩ := createInvoice_panics.mp ⟨s', hx⟩
      rcases hcut with hlt | hno
      · exact (not_le.mpr hlt (hs config sender receiver hg).2).elim
      · exact (hno hids).elim

end Creation

namespace Sample

/-- Bob's profile once he is Alice's contact, with any verification status. -/
def bobProfile (status : KYCStatus) : ContactInfo :=
  { ContactInfo.fresh bob "Bob" "" "" "" "" with contacts := [alice], kycStatus := status }

/-- The storage in which Alice and Bob are contacts, with Bob's status set. -/
def verified (status : KYCStatus) : Storage :=
  (storage configured).opened bob (bobProfile status)

private theorem gated (status : KYCStatus) (hv : status ≠ .unverified) (declared : Uint128) :
    InvoiceGated (verified status) ⟨alice, []⟩ (terms declared) ⟨⟨"nft"⟩, owner, assets⟩
      { ContactInfo.fresh alice "Alice" "" "" "" "" with contacts := [bob] } (bobProfile status) where
  noFunds := rfl
  distinct := show alice ≠ bob by decide
  sameDenom := rfl
  configured := rfl
  listed := rfl
  creator := by
    rw [verified, Storage.opened, Finmap.lookup_insert_of_ne _ (by decide)]
    rfl
  creatorApproved := rfl
  contact := List.mem_singleton_self _
  counterparty := Finmap.lookup_insert _
  counterpartyVerified := hv

end Sample

theorem invoice_verdict_iff_of_approved :
    InvoiceVerdict Sample.env (Sample.verified .approved) ⟨Sample.alice, []⟩ (Sample.terms 0) ↔
      Scrupulous (Sample.verified .approved) ⟨Sample.alice, []⟩ (Sample.terms 0) :=
  invoice_verdict_iff Sample.env (Sample.verified .approved) ⟨Sample.alice, []⟩ (Sample.terms 0) (by decide)

/-- An invoice on a rejected counterparty is raised, and one that is paid beyond its amount panics. -/
theorem verdict_missed :
    ¬ InvoiceVerdict Sample.env (Sample.verified .rejected) ⟨Sample.alice, []⟩ (Sample.terms 0) ∧
    ¬ InvoiceVerdict Sample.env (Sample.verified .approved) ⟨Sample.alice, []⟩ (Sample.terms 101) := by
  constructor
  · intro hv
    have hs := hv.scrupulous (by decide) _ _ _ (Sample.gated .rejected (by decide) 0)
    exact absurd hs.1 (by decide)
  · intro hv
    have hs := hv.scrupulous (by decide) _ _ _ (Sample.gated .approved (by decide) 101)
    exact absurd hs.2 (by decide)

end ComdexRwa.Core
