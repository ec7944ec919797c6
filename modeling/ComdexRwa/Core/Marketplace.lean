import ComdexRwa.Core.InvoiceLife
import ComdexRwa.Core.Offers
import ComdexRwa.Foundation.Market

/-! The contract as a market. Lists, indices and profiles are left out of the view, and what is left is all
that decides which calls are answered. -/
namespace ComdexRwa.Core
open Foundation

/-- Numbers come two at a time, and the first of them is the new invoice's. -/
def Follows (last k next : U64) : Prop := k.val = last.val + 1 ∧ next.val = k.val + 1

abbrev TradeMove := Market.Move Addr String U64

def marketplace : Machine (Market Addr String U64) TradeMove := Market.machine Follows 1000000

def Invoice.deal (invoice : Invoice) : Deal Addr String :=
  ⟨invoice.from, invoice.payeeAddress, invoice.receivable.denom, invoice.debt⟩

def Storage.market (s : Storage) : Market Addr String U64 where
  members := {a | a ∈ s.contactInfo}
  asked := pairs s.sentRequests
  partners := pairs s.contacts
  assets := {denom | ∃ config, s.config = some config ∧ config.accepts denom = true}
  deals k := (s.invoice.lookup k).map Invoice.deal
  last := s.invoiceId.getD 0

/-- The move that a call asks for. A call that can be seen to be malformed asks for none. -/
def Call.move : Call → Option TradeMove
  | .instantiate _ => none
  | .execute info (.createRequest address) => some (.ask info.sender address)
  | .execute info (.acceptRequest address) => if info.funds = [] then some (.grant address info.sender) else none
  | .execute info (.createProfile ..) => if info.funds = [] then some (.join info.sender) else none
  | .execute info (.createInvoice terms) =>
    if info.funds = [] ∧ terms.receivable.denom = terms.amountPaid.denom ∧
        terms.amountPaid.amount ≤ terms.receivable.amount then
      some (.offer info.sender terms.payeeAddress terms.receivable.denom terms.receivable.amount.val
        (terms.receivable.amount.val - terms.amountPaid.amount.val))
    else none
  | .execute _ (.setConfig _ _ acceptedAssets) =>
    some (.configure {denom | ∃ asset ∈ acceptedAssets, asset.denom = denom})
  | .execute info (.acceptInvoice invoiceId) => some (.accept info.sender invoiceId)
  | .execute info (.payInvoice invoiceId) =>
    match info.funds with
    | [fund] => some (.pay info.sender invoiceId fund.denom fund.amount.val)
    | _ => none
  | .migrate => some .idle

/-- A payment asks for its move with one coin and not with more. -/
private theorem move_payInvoice (info : MessageInfo) (invoiceId : U64) (l : TradeMove) :
    (Call.execute info (.payInvoice invoiceId)).move = some l ↔
      ∃ fund, info.funds = [fund] ∧ .pay info.sender invoiceId fund.denom fund.amount.val = l := by
  obtain ⟨sender, _ | ⟨fund, _ | ⟨second, rest⟩⟩⟩ := info <;> simp [Call.move]

section View
variable {s : Storage} {info : MessageInfo} {address : Addr} {c d : ContactInfo} {invoiceId : U64}

/-- Saving two profiles that are there adds no member. -/
private theorem members_saved {m : Finmap (fun _ : Addr => ContactInfo)} {a b : Addr} {c' d' : ContactInfo}
    (hc : m.lookup a = some c) (hd : (m.insert a c').lookup b = some d) :
    {x | x ∈ (m.insert a c').insert b d'} = {x | x ∈ m} := by
  ext x
  change x ∈ (m.insert a c').insert b d' ↔ x ∈ m
  rw [mem_insert_of_mem (Finmap.mem_of_lookup_eq_some hd), mem_insert_of_mem (Finmap.mem_of_lookup_eq_some hc)]

private theorem deals_saved (m : Finmap fun _ : U64 => Invoice) (k : U64) (invoice : Invoice) :
    (fun j => ((m.insert k invoice).lookup j).map Invoice.deal) =
      Function.update (fun j => (m.lookup j).map Invoice.deal) k (some invoice.deal) := by
  funext j
  by_cases hj : j = k
  · rw [hj, Finmap.lookup_insert, Function.update_self]
    rfl
  · rw [Finmap.lookup_insert_of_ne _ hj, Function.update_of_ne hj]

private theorem market_requested (hready : RequestReady s info address c d) :
    (s.requested info.sender address c d).market =
      { s.market with asked := insert (info.sender, address) s.market.asked } := by
  have hn := notebooks_requested hready
  apply Market.ext
  · exact members_saved hready.sender (hready.recipient_saved _)
  · change pairs (s.requested info.sender address c d).notebooks.sent = _
    rw [hn]
    exact pairs_push _ _ _
  · change pairs (s.requested info.sender address c d).notebooks.contacts = _
    rw [hn]
    rfl
  · rfl
  · rfl
  · rfl

private theorem market_befriended (hn : s.notebooks.Reciprocal) (hready : AcceptReady s info address c d) :
    (s.befriended info.sender address c d).market =
      { s.market with
        asked := s.market.asked \ {(address, info.sender)}
        partners := insert (address, info.sender) (insert (info.sender, address) s.market.partners) } := by
  have hne := hready.ne hn
  have hgrant := notebooks_befriended hready hne
  apply Market.ext
  · exact members_saved hready.sender hready.requester
  · change pairs (s.befriended info.sender address c d).notebooks.sent = _
    rw [hgrant]
    apply pairs_drop
    exact List.nodup_iff_count_le_one.mpr fun b => hn.proper.single address b
  · change pairs (s.befriended info.sender address c d).notebooks.contacts = _
    have hkept : s.notebooks.contacts address = Function.update s.notebooks.contacts info.sender
        (s.notebooks.contacts info.sender ++ [address]) address := (Function.update_of_ne hne _ _).symm
    rw [hgrant, Notebooks.grant, hkept, pairs_push, pairs_push]
    rfl
  · rfl
  · rfl
  · rfl

private theorem market_opened {profile : ContactInfo} (hnone : s.contactInfo.lookup info.sender = none)
    (hs : profile.sentRequests = []) (hr : profile.receivedRequests = []) (hk : profile.contacts = []) :
    (s.opened info.sender profile).market = { s.market with members := insert info.sender s.market.members } := by
  have hn := notebooks_opened hnone hs hr hk
  apply Market.ext
  · ext x
    exact Finmap.mem_insert
  · exact congrArg (fun n => pairs n.sent) hn
  · exact congrArg (fun n => pairs n.contacts) hn
  · rfl
  · rfl
  · rfl

private theorem market_invoiced {terms : InvoiceTerms} {b : InvoiceBasis} (hready : InvoiceReady s info terms b) :
    (s.invoiced info.sender terms b).market =
      { s.market with
        deals := Function.update s.market.deals b.id (some ⟨info.sender, terms.payeeAddress, terms.receivable.denom,
          ⟨terms.receivable.amount.val, 0, terms.receivable.amount.val - terms.amountPaid.amount.val, .proposed⟩⟩)
        last := b.next } := by
  have hn := notebooks_invoiced hready
  apply Market.ext
  · exact members_saved hready.creator (hready.counterparty_saved _)
  · exact congrArg (fun n => pairs n.sent) hn
  · exact congrArg (fun n => pairs n.contacts) hn
  · rfl
  · exact deals_saved _ _ _
  · rfl

/-- Only the deal of an invoice that is rewritten changes. -/
private theorem market_rewritten (s : Storage) (k : U64) (invoice : Invoice) :
    Storage.market { s with invoice := s.invoice.insert k invoice } =
      { s.market with deals := Function.update s.market.deals k (some invoice.deal) } := by
  apply Market.ext
  · rfl
  · rfl
  · rfl
  · rfl
  · exact deals_saved _ _ _
  · rfl

private theorem market_configured (s : Storage) (nftAddress owner : Addr) (acceptedAssets : List Asset) :
    Storage.market { s with config := some ⟨nftAddress, owner, acceptedAssets⟩ } =
      { s.market with assets := {denom | ∃ asset ∈ acceptedAssets, asset.denom = denom} } := by
  apply Market.ext
  · rfl
  · rfl
  · rfl
  · ext denom
    change (∃ config, some _ = some config ∧ Config.accepts config denom = true) ↔ _
    simp [Config.accepts]
  · rfl
  · rfl

private theorem deal_stored {invoice : Invoice} (h : s.invoice.lookup invoiceId = some invoice) :
    s.market.deals invoiceId = some invoice.deal := by
  change (s.invoice.lookup invoiceId).map Invoice.deal = _
  rw [h]
  rfl

private theorem PaymentReady.deal {b : PaymentBasis} (hready : PaymentReady s info invoiceId b) :
    (b.invoice.credited b.total).deal =
      { b.invoice.deal with debt := b.invoice.deal.debt.pay b.fund.amount.val } := by
  unfold Invoice.deal
  rw [hready.debt]
  rfl

end View

section Laws
variable {env : Env} {h : History} {s s' : Storage} {c : Call} {l : TradeMove}

/-- In every state reached, the version recorded is the contract's own. -/
private theorem release_recorded (hr : Run (rwa env) h s) :
    s.contractInfo = some ⟨contractName, contractVersion⟩ := by
  refine rwa_invariant (I := fun s => s.contractInfo = some ⟨contractName, contractVersion⟩) rfl ?_ hr
  intro s c r s' hi _ he
  cases he with
  | instantiate => rfl
  | migrate => rfl
  | _ => exact hi

private theorem transact_of_effect {r : Reply} (he : Effect env s c r s') :
    (rwa env).transact s c = ⟨s, c, .ok r, s'⟩ :=
  System.transact_of_returns ((dispatch_returns env c s r s').mpr he)

/-- A call that returns makes its move. -/
private theorem Effect.marketMove {r : Reply} (hr : Run (rwa env) h s) (he : Effect env s c r s')
    (hc : c.opens = false) :
    ∃ l, c.move = some l ∧ marketplace.step s.market l s'.market := by
  have hn := notebooks_reciprocal hr
  cases he with
  | instantiate info => cases hc
  | createRequest hready =>
    refine ⟨_, rfl, ?_⟩
    rw [market_requested hready]
    exact .ask hready.distinct (Finmap.mem_of_lookup_eq_some hready.sender)
      (Finmap.mem_of_lookup_eq_some hready.recipient) hready.unasked
  | acceptRequest hready =>
    refine ⟨_, if_pos hready.noFunds, ?_⟩
    rw [market_befriended hn hready]
    exact .grant (hready.pending (hready.ne hn))
  | createProfile hfunds hnone =>
    refine ⟨_, if_pos hfunds, ?_⟩
    rw [market_opened hnone rfl rfl rfl]
    exact .join (Finmap.lookup_eq_none.mp hnone)
  | @createInvoice info terms b hready =>
    refine ⟨_, if_pos ⟨hready.noFunds, hready.sameDenom, hready.covered⟩, ?_⟩
    rw [market_invoiced hready]
    refine .offer ?_ ⟨_, hready.configured, hready.listed⟩ (Nat.sub_le _ _) ⟨hready.id, hready.next⟩
    change terms.payeeAddress ∈ listed ContactInfo.contacts s.contactInfo info.sender
    rw [listed_of_lookup _ hready.creator]
    exact hready.contact
  | setConfig info nftAddress owner acceptedAssets =>
    refine ⟨_, rfl, ?_⟩
    rw [market_configured]
    exact .configure _
  | @acceptInvoice info k invoice hready =>
    refine ⟨_, rfl, ?_⟩
    rw [← hready.payee, Storage.acceptedInvoice, market_rewritten]
    exact .accept (deal_stored hready.stored) (congrArg Status.stage hready.raised)
  | @payInvoice info k b hready =>
    refine ⟨_, (move_payInvoice info k _).mpr ⟨b.fund, hready.single, rfl⟩, ?_⟩
    · rw [← hready.payee, Storage.credited, market_rewritten, hready.deal]
      refine .pay (deal_stored hready.stored) ?_ ?_ ⟨_, hready.configured, hready.listed⟩ ?_
      · exact fun hstage => hready.accepted (Status.stage_injective hstage)
      · exact fun hstage => hready.unpaid (Status.stage_injective hstage)
      · exact hready.total.symm.trans_le ((Word.le_iff _ _).mp hready.within)
  | migrate => exact ⟨_, rfl, .idle⟩

/-! What the market shows of a storage is enough for the guards of every call. -/

private theorem requestReady_of_members {info : MessageInfo} {address : Addr} (hne : info.sender ≠ address)
    (ha : info.sender ∈ s.market.members) (hb : address ∈ s.market.members)
    (hfree : (info.sender, address) ∉ s.market.asked) : ∃ c d, RequestReady s info address c d := by
  obtain ⟨c, hc⟩ := Finmap.mem_iff.mp ha
  obtain ⟨d, hd⟩ := Finmap.mem_iff.mp hb
  refine ⟨c, d, hne, hc, ?_, hd⟩
  rwa [← listed_of_lookup ContactInfo.sentRequests hc]

private theorem acceptReady_of_asked {info : MessageInfo} {address : Addr} (hn : s.notebooks.Reciprocal)
    (hfunds : info.funds = []) (hasked : (address, info.sender) ∈ s.market.asked) :
    ∃ c d, AcceptReady s info address c d := by
  have hreceived : address ∈ s.receivedRequests info.sender := hn.sent_iff.mp hasked
  obtain ⟨c, hc⟩ := lookup_of_mem_listed hreceived
  rw [Storage.receivedRequests, listed_of_lookup _ hc] at hreceived
  exact ⟨c, acceptReady_of_received hn hfunds hc hreceived⟩

private theorem invoiceReady_of_partners {info : MessageInfo} {terms : InvoiceTerms} {k last : U64}
    (hr : Run (rwa env) h s)
    (hfunds : info.funds = []) (hdenom : terms.receivable.denom = terms.amountPaid.denom)
    (hcovered : terms.amountPaid.amount ≤ terms.receivable.amount)
    (hpartner : (info.sender, terms.payeeAddress) ∈ s.market.partners)
    (hasset : terms.receivable.denom ∈ s.market.assets) (hfollows : Follows s.market.last k last) :
    ∃ config c d, InvoiceReady s info terms ⟨config, c, d, k, last⟩ := by
  obtain ⟨config, c, d, hg⟩ := gated_of_contact hr hfunds hdenom hasset hpartner
  exact ⟨config, c, d, hfunds, hg.distinct, hdenom, hg.configured, hg.listed, hg.creator, hg.creatorApproved,
    hg.contact, hg.counterparty, hg.counterpartyVerified, hcovered, hfollows.1, hfollows.2⟩

private theorem paymentReady_of_deal {info : MessageInfo} {k : U64} {fund : Coin} {invoice : Invoice}
    (hfunds : info.funds = [fund]) (hstored : s.invoice.lookup k = some invoice)
    (hpayee : invoice.payeeAddress = info.sender)
    (hproposed : invoice.debt.stage ≠ .proposed) (hsettled : invoice.debt.stage ≠ .settled)
    (hasset : fund.denom ∈ s.market.assets) (hwithin : invoice.debt.paid + fund.amount.val ≤ invoice.debt.amount) :
    ∃ config total, PaymentReady s info k ⟨fund, config, invoice, total⟩ := by
  obtain ⟨config, hconfig, hlisted⟩ := hasset
  exact ⟨config, ⟨_, lt_of_le_of_lt hwithin invoice.receivable.amount.isLt⟩, hfunds, hconfig, hlisted, hstored, hpayee,
    fun hst => hproposed (congrArg Status.stage hst), fun hst => hsettled (congrArg Status.stage hst), rfl, hwithin⟩

/-- A move that the market allows is made by every call that asks for it. -/
private theorem effect_of_move {m : Market Addr String U64} (hr : Run (rwa env) h s) (hmove : c.move = some l)
    (hstep : marketplace.step s.market l m) : ∃ r s', Effect env s c r s' ∧ s'.market = m := by
  have hn := notebooks_reciprocal hr
  cases c with
  | instantiate info => cases hmove
  | execute info msg =>
    cases msg with
    | createRequest address =>
      cases hmove
      cases hstep with
      | ask hne ha hb hfree =>
        obtain ⟨c, d, hready⟩ := requestReady_of_members hne ha hb hfree
        exact ⟨_, _, .createRequest hready, market_requested hready⟩
    | acceptRequest address =>
      obtain ⟨hfunds, hmove⟩ := Option.ite_none_right_eq_some.mp hmove
      cases hmove
      cases hstep with
      | grant hasked =>
        obtain ⟨c, d, hready⟩ := acceptReady_of_asked hn hfunds hasked
        exact ⟨_, _, .acceptRequest hready, market_befriended hn hready⟩
    | createProfile _ _ _ _ _ =>
      obtain ⟨hfunds, hmove⟩ := Option.ite_none_right_eq_some.mp hmove
      cases hmove
      cases hstep with
      | join hnew =>
        have hnone := Finmap.lookup_eq_none.mpr hnew
        exact ⟨_, _, .createProfile hfunds hnone, market_opened hnone rfl rfl rfl⟩
    | createInvoice terms =>
      obtain ⟨⟨hfunds, hdenom, hcovered⟩, hmove⟩ := Option.ite_none_right_eq_some.mp hmove
      cases hmove
      cases hstep with
      | offer hpartner hasset hdue hfollows =>
        obtain ⟨config, c, d, hready⟩ := invoiceReady_of_partners hr hfunds hdenom hcovered hpartner hasset hfollows
        exact ⟨_, _, .createInvoice hready, market_invoiced hready⟩
    | setConfig nftAddress owner acceptedAssets =>
      cases hmove
      cases hstep with
      | configure => exact ⟨_, _, .setConfig _ _ _ _, market_configured _ _ _ _⟩
    | acceptInvoice k =>
      cases hmove
      generalize hsender : info.sender = sender at hstep
      cases hstep with
      | accept hdeal hstage =>
        obtain ⟨invoice, hstored, rfl⟩ := Option.map_eq_some_iff.mp hdeal
        have hready : AcceptanceReady s info k invoice := ⟨hstored, hsender.symm, Status.stage_injective hstage⟩
        exact ⟨_, _, .acceptInvoice hready, market_rewritten s k _⟩
    | payInvoice k =>
      obtain ⟨fund, hfunds, rfl⟩ := (move_payInvoice info k l).mp hmove
      generalize hsender : info.sender = sender at hstep
      cases hstep with
      | pay hdeal hproposed hsettled hasset hwithin =>
        obtain ⟨invoice, hstored, rfl⟩ := Option.map_eq_some_iff.mp hdeal
        obtain ⟨config, total, hready⟩ :=
          paymentReady_of_deal hfunds hstored hsender.symm hproposed hsettled hasset hwithin
        refine ⟨_, _, .payInvoice hready, ?_⟩
        rw [Storage.credited, market_rewritten, hready.deal]
  | migrate =>
    cases hmove
    cases hstep with
    | idle => exact ⟨_, _, .migrate (release_recorded hr) rfl (String.lt_irrefl _), rfl⟩

private theorem rwa_implements (env : Env) : Implements (rwa env) marketplace Storage.market Call.move := by
  constructor
  · intro c r s hc hret
    obtain ⟨⟨info, rfl⟩, _, rfl⟩ := opening_returns hc hret
    refine ⟨rfl, Market.ext ?_ ?_ ?_ ?_ rfl rfl⟩
    · exact Set.eq_empty_of_forall_notMem fun a => Finmap.notMem_empty
    · exact Set.eq_empty_of_forall_notMem fun _ hp => (nomatch hp)
    · exact Set.eq_empty_of_forall_notMem fun _ hp => (nomatch hp)
    · exact Set.eq_empty_of_forall_notMem fun _ ⟨_, hc, _⟩ => (nomatch hc)
  · intro h s c r s' hr hc hret
    exact Effect.marketMove hr ((dispatch_returns env c s r s').mp hret) hc
  · intro h s c l m hr _ hmove hstep
    obtain ⟨r, s', he, hview⟩ := effect_of_move hr hmove hstep
    exact ⟨r, s', (dispatch_returns env c s r s').mpr he, hview⟩

private theorem continues_of_move (hmove : c.move = some l) : c.opens = false := by
  cases c with
  | instantiate info => cases hmove
  | execute info msg => rfl
  | migrate => rfl

/-- The contract is the market: every run makes moves that the market allows and nothing else, a call returns
exactly when its move is allowed, and whatever moves the market allows from where a run has led, any calls that
ask for them make them. -/
theorem contract_is_market (hr : Run (rwa env) h s) :
    marketplace.Steps marketplace.start (h.filterMap (Event.made Call.move)) s.market ∧
    (∀ c : Call, c.opens = false → ((∃ r s', (dispatch env c).Returns s r s') ↔
      ∃ l m, c.move = some l ∧ marketplace.step s.market l m)) ∧
    ∀ (cs : List Call) (ls : List TradeMove) (m : Market Addr String U64), cs.map Call.move = ls.map some →
      marketplace.Steps s.market ls m → ∃ h' s', Run (rwa env) (h ++ h') s' ∧ h'.map Event.call = cs ∧
        (∀ e ∈ h', ∃ r, e.reply = .ok r) ∧ s'.market = m := by
  refine ⟨(rwa_implements env).steps hr, fun c hc => (rwa_implements env).returns_iff hr hc, ?_⟩
  intro cs ls m hmoves hsteps
  refine (rwa_implements env).realised hr (fun c hmem => ?_) hmoves hsteps
  have hmove : c.move ∈ ls.map some := hmoves ▸ List.mem_map_of_mem hmem
  obtain ⟨l, _, hl⟩ := List.mem_map.mp hmove
  exact continues_of_move hl.symm

/-- Storages with the same market, however and wherever they were reached, answer the same calls from then on
and come to the same markets: nothing else that they hold ever decides whether a call is answered. -/
theorem market_decides {env' : Env} {h' : History} {s' : Storage} (hr : Run (rwa env) h s)
    (hr' : Run (rwa env') h' s') (hsame : s.market = s'.market) (cs : List Call) (hc : ∀ c ∈ cs, c.opens = false) :
    ((rwa env).replay s cs).1.map (fun e => e.reply.isOk) = ((rwa env').replay s' cs).1.map (fun e => e.reply.isOk) ∧
      ((rwa env).replay s cs).2.market = ((rwa env').replay s' cs).2.market :=
  (rwa_implements env).alike (rwa_implements env') hr hr' hsame fun c hmem => ⟨hc c hmem, hc c hmem⟩

/-- A contact is a contact for good, and every invoice there is stands between two of them. -/
theorem contacts_for_good (hr : Run (rwa env) h s) :
    (∀ e ∈ h, ∀ a, ∀ b ∈ e.after.contacts a, b ∈ s.contacts a ∧ a ∈ s.contacts b) ∧
      ∀ k invoice, s.invoice.lookup k = some invoice →
        invoice.payeeAddress ∈ s.contacts invoice.from ∧ invoice.from ∈ s.contacts invoice.payeeAddress := by
  have horderly : s.market.Orderly := Market.machine_orderly ((rwa_implements env).steps hr)
  have hkept : ∀ e ∈ h, e.after.market.partners ⊆ s.market.partners := by
    refine rwa_evolves (R := fun s t => s.market.partners ⊆ t.market.partners) (fun _ => Set.Subset.refl _)
      (fun _ _ _ => Set.Subset.trans) ?_ hr
    intro h s c r s' hr hc he
    obtain ⟨l, _, hstep⟩ := he.marketMove hr hc
    exact Market.Step.partners_subset hstep
  constructor
  · intro e he a b hb
    have hpartner : (a, b) ∈ s.market.partners := hkept e he hb
    exact ⟨hpartner, horderly.mutually a b hpartner⟩
  · intro k invoice hk
    have hpartner := horderly.partners k invoice.deal (deal_stored hk)
    exact ⟨hpartner, horderly.mutually _ _ hpartner⟩

/-- Granted once more, a contact is listed once more. -/
private theorem listed_again {s₁ s₂ : Storage} {a b : Addr} {r r' : Reply} (hne : a ≠ b)
    (hask : Effect env s (.execute ⟨a, []⟩ (.createRequest b)) r s₁)
    (hgrant : Effect env s₁ (.execute ⟨b, []⟩ (.acceptRequest a)) r' s₂) :
    (s₂.contacts a).count b = (s.contacts a).count b + 1 := by
  have hasked : s₁.notebooks = s.notebooks.ask a b := by
    cases hask with
    | createRequest hready => exact notebooks_requested hready
  have hgranted : s₂.notebooks = s₁.notebooks.grant a b := by
    cases hgrant with
    | acceptRequest hready => exact notebooks_befriended hready hne
  change s₂.notebooks.counts.linked a b = s.notebooks.counts.linked a b + 1
  rw [hgranted, Notebooks.counts_grant _ _ _ hne, hasked, Notebooks.counts_ask]
  change s.notebooks.counts.linked a b + Handshake.mark a b a b + Handshake.mark b a a b = _
  rw [Handshake.mark_self, Handshake.mark_of_ne fun hsame => hne hsame.1]

/-- A contact can be asked and can grant once more, and the market is as it was. -/
private theorem market_asked_again (hr : Run (rwa env) h s) {a b : Addr} (hne : a ≠ b) (hcontact : b ∈ s.contacts a)
    (hunasked : b ∉ s.sentRequests a) : ∃ r s₁ r' s₂, Effect env s (.execute ⟨a, []⟩ (.createRequest b)) r s₁ ∧
      Effect env s₁ (.execute ⟨b, []⟩ (.acceptRequest a)) r' s₂ ∧ s₂.market = s.market := by
  have hmutual : a ∈ s.contacts b := (notebooks_reciprocal hr).contacts_iff.mp hcontact
  obtain ⟨c, hc⟩ := lookup_of_mem_listed hcontact
  obtain ⟨d, hd⟩ := lookup_of_mem_listed hmutual
  obtain ⟨r, s₁, hask, hs₁⟩ := effect_of_move (c := .execute ⟨a, []⟩ (.createRequest b)) hr rfl
    (.ask hne (Finmap.mem_of_lookup_eq_some hc) (Finmap.mem_of_lookup_eq_some hd) hunasked)
  have hr₁ := hr.step (M := rwa env) (.execute ⟨a, []⟩ (.createRequest b)) rfl
  rw [transact_of_effect hask] at hr₁
  have hasked : (a, b) ∈ s₁.market.asked := by
    rw [hs₁]
    exact Set.mem_insert _ _
  obtain ⟨r', s₂, hgrant, hs₂⟩ := effect_of_move (c := .execute ⟨b, []⟩ (.acceptRequest a)) hr₁ rfl (.grant hasked)
  refine ⟨r, s₁, r', s₂, hask, hgrant, ?_⟩
  rw [hs₂, hs₁]
  apply Market.ext
  · rfl
  · exact Set.insert_sdiff_self_of_notMem hunasked
  · have hback : (b, a) ∈ s.market.partners := hmutual
    have hthere : (a, b) ∈ s.market.partners := hcontact
    exact (congrArg _ (Set.insert_eq_of_mem hback)).trans (Set.insert_eq_of_mem hthere)
  · rfl
  · rfl
  · rfl

/-- Contacts who ask and grant each other once more are listed once more, and no later call is answered any
differently for it. -/
theorem repeat_harmless (hr : Run (rwa env) h s) {a b : Addr} (hcontact : b ∈ s.contacts a)
    (hunasked : b ∉ s.sentRequests a) (cs : List Call) (hc : ∀ c ∈ cs, c.opens = false) :
    let again := ((rwa env).replay s [.execute ⟨a, []⟩ (.createRequest b), .execute ⟨b, []⟩ (.acceptRequest a)]).2
    (again.contacts a).count b = (s.contacts a).count b + 1 ∧
      ((rwa env).replay again cs).1.map (fun e => e.reply.isOk) =
          ((rwa env).replay s cs).1.map (fun e => e.reply.isOk) ∧
        ((rwa env).replay again cs).2.market = ((rwa env).replay s cs).2.market := by
  have hne : a ≠ b := by
    rintro rfl
    exact ((notebooks_reciprocal hr).alone a).2.2 hcontact
  obtain ⟨r, s₁, r', s₂, hask, hgrant, hsame⟩ := market_asked_again hr hne hcontact hunasked
  have hcalls : ∀ c ∈ [Call.execute ⟨a, []⟩ (.createRequest b), .execute ⟨b, []⟩ (.acceptRequest a)],
      (rwa env).continues c := by
    intro c hmem
    rcases List.mem_pair.mp hmem with rfl | rfl
    · rfl
    · rfl
  have hrun := hr.replay hcalls
  have hagain : ((rwa env).replay s [.execute ⟨a, []⟩ (.createRequest b), .execute ⟨b, []⟩ (.acceptRequest a)]).2 =
      s₂ := by
    simp only [System.replay, transact_of_effect hask, transact_of_effect hgrant]
  rw [hagain] at hrun
  dsimp only
  rw [hagain]
  exact ⟨listed_again hne hask hgrant,
    (rwa_implements env).alike (rwa_implements env) hrun hr hsame fun c hmem => ⟨hc c hmem, hc c hmem⟩⟩

end Laws

/-- Somebody else joins. -/
def Sample.joining : Call := Sample.call ⟨"carol"⟩ (.createProfile "Carol" "" "" "" "")

/-- The run in which a hundred dollars are invoiced and paid makes moves of the market, and the next one to join
can do so. -/
theorem contract_is_market_of_settled :
    marketplace.Steps marketplace.start ((Sample.history Sample.settled).filterMap (Event.made Call.move))
      (Sample.storage Sample.settled).market ∧
    (∃ r s', (dispatch Sample.env Sample.joining).Returns (Sample.storage Sample.settled) r s') ∧
    ∃ h' s', Run (rwa Sample.env) (Sample.history Sample.settled ++ h') s' ∧ h'.map Event.call = [Sample.joining] ∧
      (∀ e ∈ h', ∃ r, e.reply = .ok r) ∧
      s'.market = { (Sample.storage Sample.settled).market with
        members := insert ⟨"carol"⟩ (Sample.storage Sample.settled).market.members } := by
  obtain ⟨hsteps, hreturns, hrealised⟩ := contract_is_market (Sample.run Sample.settled (by decide))
  have hnew : (⟨"carol"⟩ : Addr) ∉ (Sample.storage Sample.settled).market.members := by
    change ¬ (⟨"carol"⟩ : Addr) ∈ (Sample.storage Sample.settled).contactInfo
    rw [← Finmap.lookup_eq_none]
    decide
  have hjoin : marketplace.step (Sample.storage Sample.settled).market (.join ⟨"carol"⟩) _ := Market.Step.join hnew
  refine ⟨hsteps, (hreturns _ rfl).mpr ⟨_, _, rfl, hjoin⟩, ?_⟩
  exact hrealised [Sample.joining] [.join ⟨"carol"⟩] _ rfl (.cons hjoin (.nil _))

/-- Bob, who has paid his invoice, is still among Alice's contacts. -/
theorem contacts_for_good_of_settled : Sample.bob ∈ (Sample.storage Sample.settled).contacts Sample.alice := by
  obtain ⟨invoice, hk, hfrom, hpayee⟩ : ∃ invoice, (Sample.storage Sample.settled).invoice.lookup Sample.invoiceId =
      some invoice ∧ invoice.from = Sample.alice ∧ invoice.payeeAddress = Sample.bob := by
    exact ⟨_, rfl, rfl, rfl⟩
  rw [← hfrom, ← hpayee]
  exact ((contacts_for_good (Sample.run Sample.settled (by decide))).2 Sample.invoiceId invoice hk).1

/-- Alice and Bob are contacts twice over, and an invoice can be raised but not paid before it is accepted. -/
theorem market_decides_of_repeated : ∃ h s, Run (rwa Sample.env) h s ∧
    (s.contacts Sample.alice).count Sample.bob = 2 ∧
      ((rwa Sample.env).replay s [Sample.call Sample.alice (.createInvoice (Sample.terms 0)),
        Sample.pay "uusd" 40]).1.map (fun e => e.reply.isOk) = [true, false] := by
  have hr := Sample.run Sample.configured (by decide)
  have hne : Sample.alice ≠ Sample.bob := by decide
  obtain ⟨r, s₁, r', s₂, hask, hgrant, hsame⟩ := market_asked_again hr hne (by decide) (by decide)
  have hr₁ := hr.step (M := rwa Sample.env) (Sample.call Sample.alice (.createRequest Sample.bob)) rfl
  rw [Sample.call, transact_of_effect hask] at hr₁
  have hr₂ := hr₁.step (M := rwa Sample.env) (Sample.call Sample.bob (.acceptRequest Sample.alice)) rfl
  rw [Sample.call, transact_of_effect hgrant] at hr₂
  refine ⟨_, s₂, hr₂, ?_, ?_⟩
  · rw [listed_again hne hask hgrant]
    decide
  · refine (market_decides hr₂ hr hsame _ (by decide)).1.trans ?_
    decide

/-- Alice and Bob are contacts twice over, and can still raise and accept an invoice. -/
theorem repeat_harmless_of_configured :
    let again := ((rwa Sample.env).replay (Sample.storage Sample.configured)
      [Sample.call Sample.alice (.createRequest Sample.bob), Sample.call Sample.bob (.acceptRequest Sample.alice)]).2
    let deal := [Sample.call Sample.alice (.createInvoice (Sample.terms 0)),
      Sample.call Sample.bob (.acceptInvoice Sample.invoiceId)]
    ((rwa Sample.env).replay again deal).1.map (fun e => e.reply.isOk) = [true, true] := by
  refine (repeat_harmless (Sample.run Sample.configured (by decide)) (by decide) (by decide) _ (by decide)).2.1.trans ?_
  decide

end ComdexRwa.Core
