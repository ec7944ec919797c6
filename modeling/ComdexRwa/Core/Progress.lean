import ComdexRwa.Core.Offers

/-! Nobody can be shut out. From every state reached, any two accounts can get as far as a settled invoice
between them by calls of their own, whatever others have done before and whatever lies open between them. -/
namespace ComdexRwa.Core
open Foundation Relation

/-- Whether a message deals with people and invoices, and not with the configuration. -/
def ExecuteMsg.trades : ExecuteMsg → Bool
  | .setConfig .. => false
  | _ => true

/-- One call of either party that returns, with coins as the chain hands them over. -/
def Trades (env : Env) (a b : Addr) (s s' : Storage) : Prop :=
  ∃ info msg r, (info.sender = a ∨ info.sender = b) ∧ msg.trades = true ∧ (Call.execute info msg).fundsPositive ∧
    (Core.execute env info msg).Returns s r s'

/-- The storage with profiles as they may be, and everything else as it was. -/
structure SameBooks (s s' : Storage) : Prop where
  config : s'.config = s.config
  invoice : s'.invoice = s.invoice
  invoiceId : s'.invoiceId = s.invoiceId

private theorem SameBooks.refl (s : Storage) : SameBooks s s := ⟨rfl, rfl, rfl⟩

private theorem SameBooks.trans {s t u : Storage} (h : SameBooks s t) (h' : SameBooks t u) : SameBooks s u :=
  ⟨h'.config.trans h.config, h'.invoice.trans h.invoice, h'.invoiceId.trans h.invoiceId⟩

section Steps
variable {env : Env} {s s' : Storage} {a b x : Addr}

private theorem Trades.reached (ht : Trades env a b s s') (hr : ∃ h, Run (rwa env) h s) :
    ∃ h, Run (rwa env) h s' := by
  obtain ⟨info, msg, r, _, _, _, hx⟩ := ht
  obtain ⟨h, hr⟩ := hr
  have hstep := hr.step (M := rwa env) (.execute info msg) rfl
  rw [System.transact_of_returns hx] at hstep
  exact ⟨_, hstep⟩

/-- A call with no coins. -/
private theorem Trades.of_unpaid (msg : ExecuteMsg) {r : Reply} (hx : x = a ∨ x = b) (hmsg : msg.trades = true)
    (hret : (Core.execute env ⟨x, []⟩ msg).Returns s r s') : Trades env a b s s' :=
  ⟨⟨x, []⟩, msg, r, hx, hmsg, fun _ hcoin => (nomatch hcoin), hret⟩

private theorem reached_of_trades (hs : ReflTransGen (Trades env a b) s s') (hr : ∃ h, Run (rwa env) h s) :
    ∃ h, Run (rwa env) h s' := by
  induction hs with
  | refl => exact hr
  | tail _ ht ih => exact ht.reached ih

/-- Either party gets a profile, unless it has one. -/
private theorem profile_possible (env : Env) (s : Storage) (hx : x = a ∨ x = b) :
    ∃ s', ReflTransGen (Trades env a b) s s' ∧ SameBooks s s' ∧
      x ∈ s'.contactInfo ∧ ∀ y ∈ s.contactInfo, y ∈ s'.contactInfo := by
  by_cases hp : x ∈ s.contactInfo
  · exact ⟨s, .refl, .refl s, hp, fun y hy => hy⟩
  · have hnone := Finmap.lookup_eq_none.mpr hp
    have hret := (createProfile_returns ⟨x, []⟩ "" "" "" "" "" s _ _).mpr ⟨rfl, rfl, hnone, rfl⟩
    refine ⟨_, .single (.of_unpaid (.createProfile "" "" "" "" "") hx rfl hret), ⟨rfl, rfl, rfl⟩, ?_, ?_⟩
    · exact Finmap.mem_insert.mpr (.inl rfl)
    · exact fun y hy => Finmap.mem_insert.mpr (.inr hy)

/-- Between accounts with profiles a request gets to stand, unless it stands already. -/
private theorem request_possible (hr : ∃ h, Run (rwa env) h s) (hne : a ≠ b) (ha : a ∈ s.contactInfo)
    (hb : b ∈ s.contactInfo) : ∃ s', ReflTransGen (Trades env a b) s s' ∧ SameBooks s s' ∧
      a ∈ s'.receivedRequests b := by
  obtain ⟨h, hr⟩ := hr
  have hn := notebooks_reciprocal hr
  obtain ⟨c, hc⟩ := Finmap.mem_iff.mp ha
  obtain ⟨d, hd⟩ := Finmap.mem_iff.mp hb
  by_cases hsent : b ∈ s.sentRequests a
  · exact ⟨s, .refl, .refl s, hn.sent_iff.mp hsent⟩
  · have hunsent : b ∉ c.sentRequests := by
      rwa [Storage.sentRequests, listed_of_lookup _ hc] at hsent
    have hready : RequestReady s ⟨a, []⟩ b c d := ⟨hne, hc, hunsent, hd⟩
    have hret := (createRequest_returns ⟨a, []⟩ b s _ _).mpr ⟨rfl, c, d, hready, rfl⟩
    refine ⟨_, .single (.of_unpaid (.createRequest b) (.inl rfl) rfl hret), ⟨rfl, rfl, rfl⟩, ?_⟩
    change a ∈ (s.requested a b c d).notebooks.received b
    rw [notebooks_requested hready]
    change a ∈ Function.update s.notebooks.received b (s.notebooks.received b ++ [a]) b
    rw [Function.update_self]
    exact List.mem_append_right _ (List.mem_singleton_self a)

/-- A request that stands can be granted, after which the two are contacts. -/
private theorem grant_possible (hr : ∃ h, Run (rwa env) h s) (hm : a ∈ s.receivedRequests b) :
    ∃ s', ReflTransGen (Trades env a b) s s' ∧ SameBooks s s' ∧ b ∈ s'.contacts a := by
  obtain ⟨h, hr⟩ := hr
  have hn := notebooks_reciprocal hr
  obtain ⟨d, hd⟩ := lookup_of_mem_listed hm
  rw [Storage.receivedRequests, listed_of_lookup _ hd] at hm
  have hfunds : (⟨b, []⟩ : MessageInfo).funds = [] := rfl
  obtain ⟨c, hready⟩ := acceptReady_of_received hn hfunds hd hm
  have hret := (acceptRequest_returns ⟨b, []⟩ a s _ _).mpr ⟨rfl, d, c, hready, rfl⟩
  refine ⟨_, .single (.of_unpaid (.acceptRequest a) (.inr rfl) rfl hret), ⟨rfl, rfl, rfl⟩, ?_⟩
  change b ∈ (s.befriended b a d c).notebooks.contacts a
  rw [notebooks_befriended hready (hready.ne hn)]
  let granted : Addr → List Addr := Function.update s.notebooks.contacts b (s.notebooks.contacts b ++ [a])
  change b ∈ Function.update granted a (s.notebooks.contacts a ++ [b]) a
  rw [Function.update_self]
  exact List.mem_append_right _ (List.mem_singleton_self b)

private theorem contact_possible (hr : ∃ h, Run (rwa env) h s) (hne : a ≠ b) :
    ∃ s', ReflTransGen (Trades env a b) s s' ∧ SameBooks s s' ∧ b ∈ s'.contacts a := by
  obtain ⟨s₁, hs₁, hbooks₁, ha, _⟩ := profile_possible env s (x := a) (a := a) (b := b) (.inl rfl)
  obtain ⟨s₂, hs₂, hbooks₂, hb, hkept⟩ := profile_possible env s₁ (x := b) (a := a) (b := b) (.inr rfl)
  have hr₂ := reached_of_trades (hs₁.trans hs₂) hr
  obtain ⟨s₃, hs₃, hbooks₃, hrequest⟩ := request_possible hr₂ hne (hkept a ha) hb
  obtain ⟨s₄, hs₄, hbooks₄, hcontact⟩ := grant_possible (reached_of_trades hs₃ hr₂) hrequest
  exact ⟨s₄, ((hs₁.trans hs₂).trans hs₃).trans hs₄, ((hbooks₁.trans hbooks₂).trans hbooks₃).trans hbooks₄, hcontact⟩

/-- An invoice just raised can be accepted and paid at once. -/
private theorem settle_possible (env : Env) {k : U64} {invoice : Invoice} {config : Config}
    (hconfig : s.config = some config)
    (hlisted : config.accepts invoice.receivable.denom = true) (hk : s.invoice.lookup k = some invoice)
    (hpayee : invoice.payeeAddress = b) (hraised : invoice.status = .raised) (hnothing : invoice.amountPaid.amount = 0)
    (hpositive : 0 < invoice.receivable.amount) :
    ∃ s', ReflTransGen (Trades env a b) s s' ∧
      s'.invoice.lookup k = some (Invoice.credited { invoice with status := .accepted } invoice.receivable.amount) := by
  have hacceptance : AcceptanceReady s ⟨b, []⟩ k invoice := ⟨hk, hpayee, hraised⟩
  have hret := (acceptInvoice_returns ⟨b, []⟩ k s _ _).mpr ⟨rfl, invoice, hacceptance, rfl⟩
  have htotal : invoice.receivable.amount.val = invoice.amountPaid.amount.val + invoice.receivable.amount.val := by
    rw [hnothing, Word.val_zero, Nat.zero_add]
  have hpayment : PaymentReady (s.acceptedInvoice k invoice) ⟨b, [invoice.receivable]⟩ k
      ⟨invoice.receivable, config, { invoice with status := .accepted }, invoice.receivable.amount⟩ :=
    ⟨rfl, hconfig, hlisted, Finmap.lookup_insert _, hpayee, fun hst => (nomatch hst), fun hst => (nomatch hst),
      htotal, le_refl _⟩
  have hret' := (payInvoice_returns ⟨b, [invoice.receivable]⟩ k _ _ _).mpr ⟨_, hpayment, rfl, rfl⟩
  have haccept : Trades env a b s (s.acceptedInvoice k invoice) :=
    .of_unpaid (.acceptInvoice k) (.inr rfl) rfl hret
  have hcoin : (Call.execute ⟨b, [invoice.receivable]⟩ (.payInvoice k)).fundsPositive := by
    intro coin hcoin
    rwa [List.mem_singleton.mp hcoin]
  have hpay : Trades env a b (s.acceptedInvoice k invoice) _ :=
    ⟨⟨b, [invoice.receivable]⟩, .payInvoice k, _, .inr rfl, rfl, hcoin, hret'⟩
  exact ⟨_, (ReflTransGen.single haccept).tail hpay, Finmap.lookup_insert _⟩

end Steps

/-- From every state reached, two accounts get by calls of their own alone to an invoice of one on the other, over
any positive amount in a denomination that is taken, that is paid in full. -/
theorem deal_possible {env : Env} {h : History} {s : Storage} (hr : Run (rwa env) h s) {a b : Addr} (hne : a ≠ b)
    (receivable : Coin) (hpositive : 0 < receivable.amount)
    (hlisted : ∃ config, s.config = some config ∧ config.accepts receivable.denom = true)
    (hids : s.idsLeft) :
    ∃ s', ReflTransGen (Trades env a b) s s' ∧ ∃ k invoice, k ∉ s.invoice ∧ s'.invoice.lookup k = some invoice ∧
      invoice.from = a ∧ invoice.payeeAddress = b ∧ invoice.receivable = receivable ∧
      invoice.amountPaid.amount = receivable.amount ∧ invoice.status = .paid := by
  obtain ⟨s₁, hs₁, hbooks, hcontact⟩ := contact_possible (b := b) ⟨h, hr⟩ hne
  obtain ⟨h₁, hr₁⟩ := reached_of_trades hs₁ ⟨h, hr⟩
  let terms : InvoiceTerms := ⟨b, receivable, ⟨receivable.denom, 0⟩, .unspecified, ""⟩
  have hzero : (0 : Uint128) ≤ receivable.amount := by
    rw [Word.le_iff, Word.val_zero]
    exact Nat.zero_le _
  have hproper : terms.Proper s₁ := ⟨rfl, hzero, by rwa [hbooks.config]⟩
  have hids₁ : s₁.idsLeft := by
    unfold Storage.idsLeft
    rwa [hbooks.invoiceId]
  obtain ⟨r, s₂, hret⟩ := (createInvoice_offered hr₁ a hids₁ hproper).mp hcontact
  have hraise : Trades env a b s₁ s₂ := .of_unpaid (.createInvoice terms) (.inl rfl) rfl hret
  obtain ⟨basis, hready, _, rfl⟩ := (createInvoice_returns env ⟨a, []⟩ terms s₁ r s₂).mp hret
  obtain ⟨s₃, hs₃, hfound⟩ := settle_possible env (a := a) (b := b)
    (show (s₁.invoiced a terms basis).config = some basis.config from hready.configured) hready.listed
    (Finmap.lookup_insert _) rfl rfl rfl hpositive
  refine ⟨s₃, (hs₁.tail hraise).trans hs₃, basis.id, _, ?_, hfound, rfl, rfl, rfl, rfl, ?_⟩
  · rw [← hbooks.invoice]
    exact next_id_fresh hr₁ basis.id hready.id
  · exact (Invoice.credited_paid_iff _ _).mpr rfl

/-- Bob, who has been invoiced by Alice, can in turn sell to somebody who has no profile yet. -/
theorem deal_possible_of_invoiced :
    Sample.bob ≠ ⟨"carol"⟩ ∧ (Sample.storage Sample.invoiced).idsLeft ∧
    ∃ s', ReflTransGen (Trades Sample.env Sample.bob ⟨"carol"⟩) (Sample.storage Sample.invoiced) s' ∧
      ∃ k invoice, k ∉ (Sample.storage Sample.invoiced).invoice ∧ s'.invoice.lookup k = some invoice ∧
        invoice.from = Sample.bob ∧ invoice.payeeAddress = ⟨"carol"⟩ ∧ invoice.receivable = ⟨"ueur", 7⟩ ∧
        invoice.amountPaid.amount = 7 ∧ invoice.status = .paid :=
  ⟨by decide, by decide, deal_possible (Sample.run Sample.invoiced (by decide)) (by decide) ⟨"ueur", 7⟩
    (by decide) ⟨⟨⟨"nft"⟩, Sample.owner, Sample.assets⟩, rfl, by decide⟩ (by decide)⟩

end ComdexRwa.Core
