import ComdexRwa.Core.Configuration
import ComdexRwa.Core.InvoiceLife
import ComdexRwa.Foundation.Issue

/-! The token of an invoice: minted when it is raised, handed to its creditor when it is settled.
First which messages a run sends, then which token contract they are addressed to. -/
namespace ComdexRwa.Core
open Foundation

def NftMsg.move {τ : Type} : NftMsg τ → TokenMove String
  | .mint msg => .mint msg.tokenId
  | .transferNft _ tokenId => .transfer tokenId

/-- The token messages a call sent, each with the address it was sent to; none without a result. -/
def CallEvent.tokenMsgs (e : CallEvent) : List (String × NftMsg Metadata) :=
  match e.reply with
  | .ok r => r.executes
  | .error _ => []

def CallEvent.moves (e : CallEvent) : List (TokenMove String) := e.tokenMsgs.map fun x => x.2.move

def History.moves (h : History) : List (TokenMove String) := h.flatMap CallEvent.moves

/-- The token that describes an invoice, in the contract's own name. -/
def Invoice.token (env : Env) (invoice : Invoice) : MintMsg Metadata :=
  { tokenId := invoice.id.decimal
    owner := env.contractAddress.text
    tokenUri := none
    extension :=
      { invoiceId := invoice.id
        «from» := invoice.from
        payeeAddress := invoice.payeeAddress
        receivable := invoice.receivable
        uri := invoice.docUri } }

private theorem Invoice.SameTerms.token {new old : Invoice} (h : new.SameTerms old) (env : Env) :
    new.token env = old.token env := by
  simp only [Invoice.token, h.id, h.creditor, h.payeeAddress, h.receivable, h.docUri]

private def Storage.Settled (s : Storage) (k : U64) : Prop :=
  ∃ invoice, s.invoice.lookup k = some invoice ∧ invoice.status = .paid

/-- The moves of a history against the invoices it has led to. -/
structure Issued (h : History) (s : Storage) : Prop where
  orderly : Orderly h.moves
  minted : ∀ t, t ∈ minted h.moves ↔ ∃ k, k ∈ s.invoice ∧ t = k.decimal
  transferred : ∀ t, t ∈ transferred h.moves ↔ ∃ k, s.Settled k ∧ t = k.decimal

section Moves
variable {env : Env} {h : History} {s s' : Storage} {e : CallEvent} {k : U64} {new : Invoice}

private theorem mem_tokenMsgs {x : String × NftMsg Metadata} :
    x ∈ e.tokenMsgs ↔ ∃ r, e.reply = .ok r ∧ x ∈ r.executes := by
  cases hr : e.reply with
  | ok r => simp [CallEvent.tokenMsgs, hr]
  | error f => simp [CallEvent.tokenMsgs, hr]

private theorem moves_append (h : History) (e : CallEvent) : History.moves (h ++ [e]) = h.moves ++ e.moves := by
  simp [History.moves]

private theorem settled_insert {m : Finmap fun _ : U64 => Invoice} (hs : s'.invoice = m.insert k new) (j : U64) :
    s'.Settled j ↔ (j = k ∧ new.status = .paid) ∨
      (j ≠ k ∧ ∃ invoice, m.lookup j = some invoice ∧ invoice.status = .paid) := by
  unfold Storage.Settled
  rw [hs]
  constructor
  · intro hx
    obtain ⟨invoice, hj, hp⟩ := hx
    rcases lookup_insert_eq_some.mp hj with ⟨hjk, rfl⟩ | ⟨hjk, hj⟩
    · exact .inl ⟨hjk, hp⟩
    · exact .inr ⟨hjk, invoice, hj, hp⟩
  · intro hx
    rcases hx with ⟨rfl, hp⟩ | ⟨hjk, invoice, hj, hp⟩
    · exact ⟨new, Finmap.lookup_insert _, hp⟩
    · exact ⟨invoice, lookup_insert_eq_some.mpr (.inr ⟨hjk, hj⟩), hp⟩

/-- A call that makes no move, adds no invoice and settles none. -/
private theorem Issued.quiet (hi : Issued h s) (hm : e.moves = []) (hkeys : ∀ k, k ∈ s'.invoice ↔ k ∈ s.invoice)
    (hpaid : ∀ k, s'.Settled k ↔ s.Settled k) : Issued (h ++ [e]) s' := by
  have hmoves : History.moves (h ++ [e]) = h.moves := by rw [moves_append, hm, List.append_nil]
  refine ⟨?_, fun t => ?_, fun t => ?_⟩
  · rw [hmoves]
    exact hi.orderly
  · rw [hmoves, hi.minted]
    simp only [hkeys]
  · rw [hmoves, hi.transferred]
    simp only [hpaid]

/-- A call that mints the token of an invoice it adds. -/
private theorem Issued.mint (hi : Issued h s) (hfresh : k ∉ s.invoice) (hm : e.moves = [.mint k.decimal])
    (hs : s'.invoice = s.invoice.insert k new) (hp : new.status ≠ .paid) : Issued (h ++ [e]) s' := by
  have hno : k.decimal ∉ Foundation.minted h.moves := by
    rw [hi.minted]
    intro hx
    obtain ⟨j, hj, hd⟩ := hx
    exact hfresh (Word.decimal_injective hd ▸ hj)
  refine ⟨?_, fun t => ?_, fun t => ?_⟩
  · rw [moves_append, hm]
    exact hi.orderly.mint hno
  · rw [moves_append, hm, minted_append, minted_mint, List.mem_append, hi.minted, List.mem_singleton, hs]
    constructor
    · intro hx
      rcases hx with ⟨j, hj, ht⟩ | ht
      · exact ⟨j, Finmap.mem_insert.mpr (.inr hj), ht⟩
      · exact ⟨k, Finmap.mem_insert.mpr (.inl rfl), ht⟩
    · intro hx
      obtain ⟨j, hj, ht⟩ := hx
      rcases Finmap.mem_insert.mp hj with rfl | hj
      · exact .inr ht
      · exact .inl ⟨j, hj, ht⟩
  · rw [moves_append, hm, transferred_append, transferred_mint, List.append_nil, hi.transferred]
    have hsame (j : U64) : s'.Settled j ↔ s.Settled j := by
      rw [settled_insert hs]
      constructor
      · intro hx
        rcases hx with ⟨_, h⟩ | ⟨_, h⟩
        · exact (hp h).elim
        · exact h
      · intro hx
        obtain ⟨invoice, hj, h⟩ := hx
        refine .inr ⟨?_, invoice, hj, h⟩
        rintro rfl
        exact hfresh (Finmap.mem_of_lookup_eq_some hj)
    simp only [hsame]

/-- A call that hands over the token of an invoice it settles. -/
private theorem Issued.transfer (hi : Issued h s) (hk : k ∈ s.invoice) (hopen : ¬ s.Settled k)
    (hm : e.moves = [.transfer k.decimal]) (hs : s'.invoice = s.invoice.insert k new) (hp : new.status = .paid) :
    Issued (h ++ [e]) s' := by
  have hback : k.decimal ∈ Foundation.minted h.moves := (hi.minted _).mpr ⟨k, hk, rfl⟩
  have hno : k.decimal ∉ Foundation.transferred h.moves := by
    rw [hi.transferred]
    intro hx
    obtain ⟨j, hj, hd⟩ := hx
    exact hopen (Word.decimal_injective hd ▸ hj)
  refine ⟨?_, fun t => ?_, fun t => ?_⟩
  · rw [moves_append, hm]
    exact hi.orderly.transfer hback hno
  · rw [moves_append, hm, minted_append, minted_transfer, List.append_nil, hi.minted, hs]
    simp only [mem_insert_of_mem hk]
  · rw [moves_append, hm, transferred_append, transferred_transfer, List.mem_append, hi.transferred,
      List.mem_singleton]
    constructor
    · intro hx
      rcases hx with ⟨j, hj, ht⟩ | ht
      · refine ⟨j, (settled_insert hs j).mpr (.inr ⟨?_, hj⟩), ht⟩
        rintro rfl
        exact hopen hj
      · exact ⟨k, (settled_insert hs k).mpr (.inl ⟨rfl, hp⟩), ht⟩
    · intro hx
      obtain ⟨j, hj, ht⟩ := hx
      rcases (settled_insert hs j).mp hj with ⟨rfl, _⟩ | ⟨_, hj⟩
      · exact .inr ht
      · exact .inl ⟨j, hj, ht⟩

/-- A call that rewrites an invoice which is neither settled before nor after. -/
private theorem Issued.rewrite {old : Invoice} (hi : Issued h s) (hk : s.invoice.lookup k = some old)
    (hm : e.moves = [])
    (hs : s'.invoice = s.invoice.insert k new) (hold : old.status ≠ .paid) (hnew : new.status ≠ .paid) :
    Issued (h ++ [e]) s' := by
  refine hi.quiet hm (fun j => ?_) (fun j => ?_)
  · rw [hs]
    exact mem_insert_of_mem (Finmap.mem_of_lookup_eq_some hk)
  · rw [settled_insert hs]
    constructor
    · intro hx
      rcases hx with ⟨_, hp⟩ | ⟨_, hj⟩
      · exact (hnew hp).elim
      · exact hj
    · intro hx
      obtain ⟨invoice, hj, hp⟩ := hx
      refine .inr ⟨?_, invoice, hj, hp⟩
      rintro rfl
      cases hk.symm.trans hj
      exact hold hp

/-- Every effect moves the tokens as the invoices require. -/
private theorem Issued.effect {c : Call} {r : Reply} (hr : Run (rwa env) h s) (hi : Issued h s)
    (he : Effect env s c r s') : Issued (h ++ [⟨s, c, .ok r, s'⟩]) s' := by
  have hmove := he.invoiceMove
  generalize hs : s'.invoice = m at hmove
  cases hmove with
  | keep _ hm =>
    refine hi.quiet ?_ (fun k => by rw [hs]) (fun k => by rw [Storage.Settled, hs, Storage.Settled])
    change r.executes.map _ = []
    rw [Response.executes_of_messages hm]
    rfl
  | raise hready => exact hi.mint (next_id_fresh hr _ hready.id) rfl hs (by simp [InvoiceTerms.raised])
  | accept hready =>
    exact hi.rewrite hready.stored rfl hs (fun hp => by cases hready.raised.symm.trans hp) (by simp)
  | @credit info invoiceId b hready =>
    by_cases ht : b.total = b.invoice.receivable.amount
    · have hm : CallEvent.moves ⟨s, .execute info (.payInvoice invoiceId), .ok (payInvoiceReply invoiceId b), s'⟩ =
          [.transfer invoiceId.decimal] := by
        simp [CallEvent.moves, CallEvent.tokenMsgs, ht, NftMsg.move]
      refine hi.transfer (Finmap.mem_of_lookup_eq_some hready.stored) ?_ hm hs ((Invoice.credited_paid_iff _ _).mpr ht)
      intro hx
      obtain ⟨invoice, hk, hp⟩ := hx
      cases hk.symm.trans hready.stored
      exact hready.unpaid hp
    · have hm : CallEvent.moves ⟨s, .execute info (.payInvoice invoiceId), .ok (payInvoiceReply invoiceId b), s'⟩ =
          [] := by
        simp [CallEvent.moves, CallEvent.tokenMsgs, ht]
      exact hi.rewrite hready.stored hm hs hready.unpaid fun hp => ht ((Invoice.credited_paid_iff _ _).mp hp)

private theorem issued (hr : Run (rwa env) h s) : Issued h s := by
  refine rwa_rule ?_ ?_ ?_ hr
  · intro info
    refine ⟨.nil, fun t => ⟨fun ht => (nomatch ht), ?_⟩, fun t => ⟨fun ht => (nomatch ht), ?_⟩⟩
    · intro hx
      obtain ⟨k, hk, _⟩ := hx
      cases Finmap.notMem_empty hk
    · intro hx
      obtain ⟨k, ⟨invoice, hk, _⟩, _⟩ := hx
      cases hk
  · exact fun h s c r s' hr hi _ he => hi.effect hr he
  · exact fun h s c e _ hi _ _ => hi.quiet rfl (fun _ => Iff.rfl) fun _ => Iff.rfl

end Moves

/-- The token messages of a history that ends in `s`, call by call and as a whole. -/
structure NftExactlyOnce (env : Env) (h : History) (s : Storage) : Prop where
  mints : ∀ e ∈ h, ∀ info terms r, e.call = .execute info (.createInvoice terms) → e.reply = .ok r →
    ∃ k invoice address, e.before.invoice.lookup k = none ∧ e.after.invoice.lookup k = some invoice ∧
      invoice.id = k ∧ r.executes = [(address, .mint (invoice.token env))] ∧
      ∃ last, s.invoice.lookup k = some last ∧ last.token env = invoice.token env
  transfers : ∀ e ∈ h, ∀ info k r, e.call = .execute info (.payInvoice k) → e.reply = .ok r →
    ∃ old new, e.before.invoice.lookup k = some old ∧ old.status ≠ .paid ∧ e.after.invoice.lookup k = some new ∧
      (new.status = .paid → ∃ address, r.executes = [(address, .transferNft new.from.text k.decimal)]) ∧
      (new.status ≠ .paid → r.executes = [])
  others : ∀ e ∈ h, ∀ r, (∀ info terms, e.call ≠ .execute info (.createInvoice terms)) →
    (∀ info k, e.call ≠ .execute info (.payInvoice k)) → e.reply = .ok r → r.executes = []
  orderly : Orderly h.moves
  settled : ∀ k invoice, s.invoice.lookup k = some invoice →
    (invoice.status = .paid ↔ k.decimal ∈ transferred h.moves)

section Laws
variable {env : Env} {h : History} {s : Storage}

/-- In every run each invoice's token is minted once, and handed over once, when it is settled. -/
theorem nft_exactly_once (hr : Run (rwa env) h s) : NftExactlyOnce env h s := by
  have hi := issued hr
  refine ⟨?_, ?_, ?_, hi.orderly, ?_⟩
  · intro e he info terms r hc hok
    obtain ⟨h', hb⟩ := rwa_reaches_before hr he (by rw [hc]; rfl)
    have heff := effect_of_reply hr he hok
    rw [hc] at heff
    generalize hs : e.after = s' at heff
    cases heff with
    | @createInvoice _ _ b hready =>
      have hk : e.after.invoice.lookup b.id = some (terms.raised info.sender b.id) := by
        rw [hs]
        exact Finmap.lookup_insert _
      obtain ⟨last, hlast, hterms, _⟩ := invoice_persists hr e he _ _ hk
      exact ⟨b.id, terms.raised info.sender b.id, _, Finmap.lookup_eq_none.mpr (next_id_fresh hb _ hready.id),
        hs ▸ hk, rfl, executes_createInvoiceReply env info.sender terms b, last, hlast, hterms.token env⟩
  · intro e he info k r hc hok
    have heff := effect_of_reply hr he hok
    rw [hc] at heff
    generalize hs : e.after = s' at heff
    cases heff with
    | @payInvoice _ _ b hready =>
      refine ⟨b.invoice, b.invoice.credited b.total, hready.stored, hready.unpaid, Finmap.lookup_insert _, ?_, ?_⟩
      · intro hp
        rw [executes_payInvoiceReply, if_pos ((Invoice.credited_paid_iff _ _).mp hp)]
        exact ⟨_, rfl⟩
      · intro hp
        rw [executes_payInvoiceReply, if_neg fun ht => hp ((Invoice.credited_paid_iff _ _).mpr ht)]
  · intro e he r hcreate hpay hok
    have hmove := (effect_of_reply hr he hok).invoiceMove
    generalize e.call = c, e.after.invoice = m at hmove hcreate hpay
    cases hmove with
    | keep _ hm => exact Response.executes_of_messages hm
    | raise _ => exact (hcreate _ _ rfl).elim
    | accept _ => rfl
    | credit _ => exact (hpay _ _ rfl).elim
  · intro k invoice hk
    rw [hi.transferred]
    constructor
    · exact fun hp => ⟨k, ⟨invoice, hk, hp⟩, rfl⟩
    · intro hx
      obtain ⟨j, ⟨found, hj, hp⟩, hd⟩ := hx
      cases Word.decimal_injective hd
      cases hk.symm.trans hj
      exact hp

theorem nft_exactly_once_of_settled :
    NftExactlyOnce Sample.env (Sample.history Sample.settled) (Sample.storage Sample.settled) ∧
    (Sample.history Sample.settled).moves = [.mint "1000001", .transfer "1000001"] :=
  ⟨nft_exactly_once (Sample.run Sample.settled (by decide)), by decide⟩

end Laws

/-! Which token contract the two messages of one invoice are addressed to. -/

/-- The event orders the mint, or the transfer, of the token of the invoice `k` at an address. -/
def CallEvent.mintsAt (e : CallEvent) (k : U64) (address : String) : Prop :=
  ∃ msg, (address, .mint msg) ∈ e.tokenMsgs ∧ msg.tokenId = k.decimal

def CallEvent.transfersAt (e : CallEvent) (k : U64) (address : String) : Prop :=
  ∃ recipient, (address, .transferNft recipient k.decimal) ∈ e.tokenMsgs

/-- Every token is handed over at the address it was minted at. -/
def TransfersReachMint (h : History) : Prop :=
  ∀ h₁ e₁ h₂ e₂ h₃, h = h₁ ++ e₁ :: (h₂ ++ e₂ :: h₃) → ∀ k a b, e₁.mintsAt k a → e₂.transfersAt k b → a = b

/-- The call raises the invoice `k`, or makes its last payment; both as the storage before it tells. -/
def CallEvent.raises (e : CallEvent) (k : U64) : Prop :=
  ∃ info terms b, e.call = .execute info (.createInvoice terms) ∧ InvoiceReady e.before info terms b ∧ b.id = k

def CallEvent.settles (e : CallEvent) (k : U64) : Prop :=
  ∃ info b, e.call = .execute info (.payInvoice k) ∧ PaymentReady e.before info k b ∧
    b.total = b.invoice.receivable.amount

/-- The token contract that the last of the calls setting a configuration names. -/
def History.nftAddress (h : History) : Option Addr :=
  ((h.filterMap fun e => e.call.setsConfig).getLast?).map Config.nftAddress

/-- The configurations last set before an invoice is raised, and before it is settled, name one token contract. -/
def KeepsNftAddress (h : History) : Prop :=
  ∀ h₁ e₁ h₂ e₂ h₃, h = h₁ ++ e₁ :: (h₂ ++ e₂ :: h₃) → ∀ k, e₁.raises k → e₂.settles k →
    History.nftAddress (h₁ ++ e₁ :: h₂) = History.nftAddress h₁

section Addresses
variable {env : Env} {h : History} {s : Storage} {e : CallEvent} {k : U64} {a : String}

/-- What a later call finds configured is what was set last before it. -/
private theorem nftAddress_before {h₁ h₂ : History} {config : Config} (hr : Run (rwa env) (h₁ ++ e :: h₂) s)
    (hs : e.before.config = some config) : History.nftAddress h₁ = some config.nftAddress := by
  rcases rwa_before hr with ⟨hempty, _⟩ | ⟨hb, _⟩
  · rw [hempty] at hs
    cases hs
  · rw [History.nftAddress, ← config_eq_last hb, hs]
    rfl

/-- Where a token message comes from: it mints the token of the invoice just raised, or hands over
that of the invoice just settled. -/
private theorem InvoiceMove.token_origin {c : Call} {r : Reply} {m : Finmap fun _ : U64 => Invoice}
    {x : String × NftMsg Metadata} (hm : InvoiceMove env s c r m) (hx : x ∈ r.executes) :
    (∃ info terms b, c = .execute info (.createInvoice terms) ∧ InvoiceReady s info terms b ∧
      x = (b.config.nftAddress.text, .mint (terms.mint env info.sender b.id))) ∨
    ∃ info k b, c = .execute info (.payInvoice k) ∧ PaymentReady s info k b ∧
      b.total = b.invoice.receivable.amount ∧
      x = (b.config.nftAddress.text, .transferNft b.invoice.from.text k.decimal) := by
  cases hm with
  | keep _ hm =>
    rw [Response.executes_of_messages hm] at hx
    cases hx
  | @raise info terms b hready =>
    rw [executes_createInvoiceReply, List.mem_singleton] at hx
    exact .inl ⟨info, terms, b, rfl, hready, hx⟩
  | accept _ => cases hx
  | @credit info k b hready =>
    rw [executes_payInvoiceReply] at hx
    split at hx
    · rename_i hfull
      rw [List.mem_singleton] at hx
      exact .inr ⟨info, k, b, rfl, hready, hfull, hx⟩
    · cases hx

private theorem mintsAt_iff (hr : Run (rwa env) h s) (he : e ∈ h) : e.mintsAt k a ↔
    ∃ info terms b, e.call = .execute info (.createInvoice terms) ∧ InvoiceReady e.before info terms b ∧
      b.id = k ∧ a = b.config.nftAddress.text := by
  constructor
  · intro hx
    obtain ⟨msg, hmem, ht⟩ := hx
    obtain ⟨r, hok, hmem⟩ := mem_tokenMsgs.mp hmem
    rcases (effect_of_reply hr he hok).invoiceMove.token_origin hmem with
      ⟨info, terms, b, hc, hready, hmsg⟩ | ⟨_, _, _, _, _, _, hmsg⟩
    · cases hmsg
      exact ⟨info, terms, b, hc, hready, Word.decimal_injective ht, rfl⟩
    · cases hmsg
  · intro hx
    obtain ⟨info, terms, b, hc, hready, rfl, rfl⟩ := hx
    obtain ⟨hok, _⟩ := reply_of_effect hr he hc rfl (.createInvoice hready)
    exact ⟨_, mem_tokenMsgs.mpr ⟨_, hok, List.mem_singleton_self _⟩, rfl⟩

private theorem transfersAt_iff (hr : Run (rwa env) h s) (he : e ∈ h) : e.transfersAt k a ↔
    ∃ info b, e.call = .execute info (.payInvoice k) ∧ PaymentReady e.before info k b ∧
      b.total = b.invoice.receivable.amount ∧ a = b.config.nftAddress.text := by
  constructor
  · intro hx
    obtain ⟨recipient, hmem⟩ := hx
    obtain ⟨r, hok, hmem⟩ := mem_tokenMsgs.mp hmem
    rcases (effect_of_reply hr he hok).invoiceMove.token_origin hmem with
      ⟨_, _, _, _, _, hmsg⟩ | ⟨info, j, b, hc, hready, hfull, hmsg⟩
    · cases hmsg
    · rw [Prod.mk.injEq, NftMsg.transferNft.injEq] at hmsg
      obtain ⟨ha, _, hd⟩ := hmsg
      cases Word.decimal_injective hd
      exact ⟨info, b, hc, hready, hfull, ha⟩
  · intro hx
    obtain ⟨info, b, hc, hready, hfull, rfl⟩ := hx
    obtain ⟨hok, _⟩ := reply_of_effect hr he hc rfl (.payInvoice hready)
    refine ⟨b.invoice.from.text, mem_tokenMsgs.mpr ⟨_, hok, ?_⟩⟩
    rw [executes_payInvoiceReply, if_pos hfull]
    exact List.mem_singleton_self _

/-- Transfers reach the minting contract along a run exactly when the configured token contract is
the same whenever an invoice is raised and when it is settled. -/
theorem transfers_reach_mint_iff (hr : Run (rwa env) h s) : TransfersReachMint h ↔ KeepsNftAddress h := by
  constructor
  · rintro hreach h₁ e₁ h₂ e₂ h₃ rfl k ⟨info₁, terms, b₁, hc₁, hready₁, hid⟩ ⟨info₂, b₂, hc₂, hready₂, hfull⟩
    have hm : e₁.mintsAt k b₁.config.nftAddress.text :=
      (mintsAt_iff hr (by simp)).mpr ⟨info₁, terms, b₁, hc₁, hready₁, hid, rfl⟩
    have ht : e₂.transfersAt k b₂.config.nftAddress.text :=
      (transfersAt_iff hr (by simp)).mpr ⟨info₂, b₂, hc₂, hready₂, hfull, rfl⟩
    have htext := hreach h₁ e₁ h₂ e₂ h₃ rfl k _ _ hm ht
    have hsame : b₁.config.nftAddress = b₂.config.nftAddress := congrArg Addr.mk htext
    rw [nftAddress_before hr hready₁.configured, hsame]
    rw [← List.cons_append, ← List.append_assoc] at hr
    exact nftAddress_before hr hready₂.configured
  · rintro hkeep h₁ e₁ h₂ e₂ h₃ rfl k a b hm ht
    obtain ⟨info₁, terms, b₁, hc₁, hready₁, hid, rfl⟩ := (mintsAt_iff hr (by simp)).mp hm
    obtain ⟨info₂, b₂, hc₂, hready₂, hfull, rfl⟩ := (transfersAt_iff hr (by simp)).mp ht
    have hsame := hkeep h₁ e₁ h₂ e₂ h₃ rfl k ⟨info₁, terms, b₁, hc₁, hready₁, hid⟩
      ⟨info₂, b₂, hc₂, hready₂, hfull⟩
    rw [nftAddress_before hr hready₁.configured] at hsame
    rw [← List.cons_append, ← List.append_assoc] at hr
    rw [nftAddress_before hr hready₂.configured] at hsame
    exact congrArg Addr.text (Option.some.inj hsame).symm

theorem transfers_reach_mint_iff_of_settled :
    TransfersReachMint (Sample.history Sample.settled) ↔ KeepsNftAddress (Sample.history Sample.settled) :=
  transfers_reach_mint_iff (Sample.run Sample.settled (by decide))

end Addresses

namespace Sample

/-- The owner moves to another token contract while the invoice is open. -/
def moved : List Call :=
  invoiced ++ [call owner (.setConfig ⟨"nft-two"⟩ owner assets), pay "uusd" 100]

/-- The call that raises the invoice, the two in between, and the one that settles it. -/
def mintEvent : CallEvent := (rwa env).transact (storage configured) (call alice (.createInvoice (terms 0)))

def between : History := ((rwa env).replay mintEvent.after
  [call bob (.acceptInvoice invoiceId), call owner (.setConfig ⟨"nft-two"⟩ owner assets)]).1

def transferEvent : CallEvent := (rwa env).transact (storage (invoiced ++
  [call owner (.setConfig ⟨"nft-two"⟩ owner assets)])) (pay "uusd" 100)

end Sample

/-- The token is minted at the old address and ordered to be transferred at the new one. -/
theorem transfer_misses_mint :
    Run (rwa Sample.env) (Sample.history Sample.moved) (Sample.storage Sample.moved) ∧
    ¬ TransfersReachMint (Sample.history Sample.moved) := by
  have hsplit : Sample.history Sample.moved =
      Sample.history Sample.configured ++ Sample.mintEvent :: (Sample.between ++ Sample.transferEvent :: []) := rfl
  have hm : Sample.mintEvent.mintsAt Sample.invoiceId "nft" :=
    ⟨(Sample.terms 0).mint Sample.env Sample.alice Sample.invoiceId, by decide, rfl⟩
  have ht : Sample.transferEvent.transfersAt Sample.invoiceId "nft-two" := ⟨Sample.alice.text, by decide⟩
  refine ⟨Sample.run Sample.moved (by decide), fun hreach => ?_⟩
  exact absurd (hreach _ _ _ _ _ hsplit Sample.invoiceId _ _ hm ht) (by decide)

end ComdexRwa.Core
