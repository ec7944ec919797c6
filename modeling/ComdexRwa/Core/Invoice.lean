import ComdexRwa.Core.State

/-! Invoices: raising one, accepting it, and paying it in one or several parts.
Each handler is followed by what it takes for it to return, and what it then leaves. -/
namespace ComdexRwa.Core
open Foundation Txn

/-- What the creator of an invoice states; the fields of the message that raises it. -/
structure InvoiceTerms where
  payeeAddress : Addr
  receivable : Coin
  amountPaid : Coin
  serviceType : ServiceType
  docUri : String
  deriving DecidableEq, Repr

def createInvoice (env : Env) (info : MessageInfo) (terms : InvoiceTerms) : Contract Reply := do
  ensure (info.funds = []) (.generic "Funds not accepted")
  ensure (info.sender ≠ terms.payeeAddress) (.generic "Receiver and Sender cannot be same")
  ensure (terms.receivable.denom = terms.amountPaid.denom)
    (.generic "Denom of receivable and amount_paid should be same")
  let config ← configItem.load
  ensure (config.accepts terms.receivable.denom = true) (.generic "Asset not accepted")
  let senderContactInfo ← okOr (.generic "Profile does not exist") (← contactInfoMap.mayLoad info.sender)
  ensure (senderContactInfo.kycStatus = .approved) (.generic "Creator KYC not verified")
  ensure (terms.payeeAddress ∈ senderContactInfo.contacts) (.generic "Receiver not in contact list")
  let receiverContactInfo ← okOr (.generic "CounterParty Profile does not exist")
    (← contactInfoMap.mayLoad terms.payeeAddress)
  ensure (receiverContactInfo.kycStatus ≠ .unverified) (.generic "CounterParty KYC not verified")
  let dueAmount ← expect (terms.receivable.amount.checkedSub terms.amountPaid.amount)
  let invoiceId ← getInvoiceId
  -- The declared payment lowers the amount due, but is not entered as paid.
  invoiceMap.save invoiceId
    { id := invoiceId
      «from» := info.sender
      payeeAddress := terms.payeeAddress
      nftId := invoiceId
      docUri := terms.docUri
      dueAmount := ⟨terms.receivable.denom, dueAmount⟩
      receivable := terms.receivable
      amountPaid := ⟨terms.receivable.denom, 0⟩
      serviceType := terms.serviceType
      status := .raised }
  contactInfoMap.save info.sender
    { senderContactInfo with generatedInvoices := senderContactInfo.generatedInvoices ++ [invoiceId] }
  contactInfoMap.save terms.payeeAddress
    { receiverContactInfo with assignedInvoices := receiverContactInfo.assignedInvoices ++ [invoiceId] }
  let metadata : Metadata :=
    { invoiceId
      «from» := info.sender
      payeeAddress := terms.payeeAddress
      receivable := terms.receivable
      uri := terms.docUri }
  let mintMsg : MintMsg Metadata :=
    { tokenId := invoiceId.decimal
      owner := env.contractAddress.text
      tokenUri := none
      extension := metadata }
  -- The counter was read one lower than the id and is stored one higher: it moves by two.
  let next ← expect (invoiceId.checkedAdd 1)
  invoiceIdItem.save next
  pure (Response.new
    |>.addMessage (.wasmExecute config.nftAddress.text (.mint mintMsg) [])
    |>.addAttribute "invoice_id" invoiceId.decimal)

/-- The one coin attached to a payment. -/
def onlyCoin : List Coin → Contract Coin
  | [fund] => pure fund
  | _ => throw (.error (.generic "Accepts only one token"))

/-- The two branches of a payment: the last part settles the invoice and orders the transfer of
its token, an earlier part lowers the amount due. -/
def recordPayment (config : Config) (invoiceId : U64) (invoice : Invoice) (total : Uint128)
    (response : Reply) : Contract Reply :=
  if total = invoice.receivable.amount then do
    invoiceMap.save invoiceId
      { invoice with amountPaid.amount := total, status := .paid, dueAmount.amount := 0 }
    pure (response.addMessage (.wasmExecute config.nftAddress.text
      (.transferNft invoice.from.text invoiceId.decimal) []))
  else do
    let dueAmount ← expect (invoice.receivable.amount.checkedSub total)
    invoiceMap.save invoiceId
      { invoice with amountPaid.amount := total, dueAmount.amount := dueAmount, status := .partiallyPaid }
    pure response

def payInvoice (info : MessageInfo) (invoiceId : U64) : Contract Reply := do
  let fund ← onlyCoin info.funds
  let config ← configItem.load
  ensure (config.accepts fund.denom = true) (.generic "Token not accepted")
  let invoice ← invoiceMap.load invoiceId
  ensure (invoice.payeeAddress = info.sender) (.generic "Receiver and Sender cannot be same")
  ensure (invoice.status ≠ .raised) (.generic "Invoice not yet accepted")
  ensure (invoice.status ≠ .paid) (.generic "Invoice already paid")
  let total ← expect (invoice.amountPaid.amount.checkedAdd fund.amount)
  ensure (total ≤ invoice.receivable.amount) (.generic "Amount paid exceeds receivable")
  let response ← recordPayment config invoiceId invoice total
    (Response.new.addAttribute "invoice_id" invoiceId.decimal)
  pure (response.addMessage (.bankSend invoice.from.text [⟨fund.denom, fund.amount⟩])
    |>.addAttribute "method" "pay_invoice"
    |>.addAttribute "amount" fund.amount.decimal
    |>.addAttribute "denom" fund.denom)

def acceptInvoice (info : MessageInfo) (invoiceId : U64) : Contract Reply := do
  let invoice ← invoiceMap.load invoiceId
  ensure (invoice.payeeAddress = info.sender) .unauthorized
  ensure (invoice.status = .raised) (.generic "Invoice already accepted")
  invoiceMap.save invoiceId { invoice with status := .accepted }
  pure (Response.new
    |>.addAttribute "method" "accept_invoice"
    |>.addAttribute "invoice_id" invoiceId.decimal)

/-- What the creation of an invoice reads: the configuration, both profiles, and the ids in turn. -/
structure InvoiceBasis where
  config : Config
  creator : ContactInfo
  counterparty : ContactInfo
  id : U64
  next : U64

/-- When `createInvoice` returns. The last three conditions exclude its panics. -/
structure InvoiceReady (s : Storage) (info : MessageInfo) (terms : InvoiceTerms) (b : InvoiceBasis) : Prop where
  noFunds : info.funds = []
  distinct : info.sender ≠ terms.payeeAddress
  sameDenom : terms.receivable.denom = terms.amountPaid.denom
  configured : s.config = some b.config
  listed : b.config.accepts terms.receivable.denom = true
  creator : s.contactInfo.lookup info.sender = some b.creator
  creatorApproved : b.creator.kycStatus = .approved
  contact : terms.payeeAddress ∈ b.creator.contacts
  counterparty : s.contactInfo.lookup terms.payeeAddress = some b.counterparty
  counterpartyVerified : b.counterparty.kycStatus ≠ .unverified
  covered : terms.amountPaid.amount ≤ terms.receivable.amount
  id : b.id.val = (s.invoiceId.getD 0).val + 1
  next : b.next.val = b.id.val + 1

/-- Saving the creator's profile first leaves the counterparty's as it was. -/
theorem InvoiceReady.counterparty_saved {s : Storage} {info : MessageInfo} {terms : InvoiceTerms} {b : InvoiceBasis}
    (hready : InvoiceReady s info terms b) (saved : ContactInfo) :
    (s.contactInfo.insert info.sender saved).lookup terms.payeeAddress = some b.counterparty := by
  rw [Finmap.lookup_insert_of_ne _ (Ne.symm hready.distinct)]
  exact hready.counterparty

/-- The invoice that the stated terms become. -/
def InvoiceTerms.raised (terms : InvoiceTerms) (sender : Addr) (id : U64) : Invoice :=
  { id
    «from» := sender
    payeeAddress := terms.payeeAddress
    nftId := id
    docUri := terms.docUri
    dueAmount := ⟨terms.receivable.denom, terms.receivable.amount.minus terms.amountPaid.amount⟩
    receivable := terms.receivable
    amountPaid := ⟨terms.receivable.denom, 0⟩
    serviceType := terms.serviceType
    status := .raised }

/-- The storage with an invoice entered, indexed on both sides, and the counter moved on. -/
def Storage.invoiced (s : Storage) (sender : Addr) (terms : InvoiceTerms) (b : InvoiceBasis) : Storage :=
  { s with
    invoice := s.invoice.insert b.id (terms.raised sender b.id)
    contactInfo := (s.contactInfo.insert sender
        { b.creator with generatedInvoices := b.creator.generatedInvoices ++ [b.id] }).insert terms.payeeAddress
        { b.counterparty with assignedInvoices := b.counterparty.assignedInvoices ++ [b.id] }
    invoiceId := some b.next }

/-- The order to mint the token of an invoice, in the contract's own name. -/
def InvoiceTerms.mint (terms : InvoiceTerms) (env : Env) (sender : Addr) (id : U64) : MintMsg Metadata :=
  { tokenId := id.decimal
    owner := env.contractAddress.text
    tokenUri := none
    extension :=
      { invoiceId := id
        «from» := sender
        payeeAddress := terms.payeeAddress
        receivable := terms.receivable
        uri := terms.docUri } }

def createInvoiceReply (env : Env) (sender : Addr) (terms : InvoiceTerms) (b : InvoiceBasis) : Reply :=
  Response.new
    |>.addMessage (.wasmExecute b.config.nftAddress.text (.mint (terms.mint env sender b.id)) [])
    |>.addAttribute "invoice_id" b.id.decimal

@[simp] theorem executes_createInvoiceReply (env : Env) (sender : Addr) (terms : InvoiceTerms) (b : InvoiceBasis) :
    (createInvoiceReply env sender terms b).executes =
      [(b.config.nftAddress.text, .mint (terms.mint env sender b.id))] := rfl

theorem createInvoice_returns (env : Env) (info : MessageInfo) (terms : InvoiceTerms) (s : Storage)
    (r : Reply) (s' : Storage) :
    (createInvoice env info terms).Returns s r s' ↔ ∃ b, InvoiceReady s info terms b ∧
      r = createInvoiceReply env info.sender terms b ∧ s' = s.invoiced info.sender terms b := by
  simp only [createInvoice, returns_ensure_bind, Item.returns_load_bind, Table.returns_mayLoad_bind,
    returns_okOr_bind, returns_expect_bind, getInvoiceId_bind, Table.returns_save_bind,
    Item.returns_save_bind, returns_pure, configItem_read, contactInfoMap_read, contactInfoMap_write,
    invoiceMap_read, invoiceMap_write, invoiceIdItem_write, Word.checkedAdd_eq_some, Word.checkedSub_eq_some]
  constructor
  · intro hx
    obtain ⟨hf, hd, hs, config, hc, hl, creator, hp, hk, hm, counterparty, hq, hv, due, ⟨hle, rfl⟩, id, hid,
      next, hn, rfl, rfl⟩ := hx
    exact ⟨⟨config, creator, counterparty, id, next⟩,
      ⟨hf, hd, hs, hc, hl, hp, hk, hm, hq, hv, hle, hid, hn⟩, rfl, rfl⟩
  · intro hx
    obtain ⟨b, ⟨hf, hd, hs, hc, hl, hp, hk, hm, hq, hv, hle, hid, hn⟩, rfl, rfl⟩ := hx
    exact ⟨hf, hd, hs, b.config, hc, hl, b.creator, hp, hk, hm, b.counterparty, hq, hv, _, ⟨hle, rfl⟩,
      b.id, hid, b.next, hn, rfl, rfl⟩

private theorem onlyCoin_bind {β : Type} (funds : List Coin) (f : Coin → Contract β) (s : Storage) (b : β)
    (s' : Storage) :
    Returns (onlyCoin funds >>= f) s b s' ↔ ∃ fund, funds = [fund] ∧ (f fund).Returns s b s' := by
  rcases funds with _ | ⟨fund, _ | ⟨second, rest⟩⟩ <;> simp [onlyCoin, returns_bind]

/-- An invoice on which `total` has been paid in all. -/
def Invoice.credited (invoice : Invoice) (total : Uint128) : Invoice :=
  { invoice with
    amountPaid.amount := total
    dueAmount.amount := invoice.receivable.amount.minus total
    status := if total = invoice.receivable.amount then .paid else .partiallyPaid }

/-- A payment leaves an invoice settled or open, as the amounts say. -/
theorem Invoice.credited_status (invoice : Invoice) (total : Uint128) :
    (total = invoice.receivable.amount ∧ (invoice.credited total).status = .paid) ∨
      (total ≠ invoice.receivable.amount ∧ (invoice.credited total).status = .partiallyPaid) := by
  by_cases ht : total = invoice.receivable.amount
  · exact .inl ⟨ht, if_pos ht⟩
  · exact .inr ⟨ht, if_neg ht⟩

theorem Invoice.credited_paid_iff (invoice : Invoice) (total : Uint128) :
    (invoice.credited total).status = .paid ↔ total = invoice.receivable.amount := by
  rcases invoice.credited_status total with ⟨ht, hst⟩ | ⟨ht, hst⟩
  · exact iff_of_true hst ht
  · rw [hst]
    exact iff_of_false (fun h => (nomatch h)) ht

def settlement (config : Config) (invoiceId : U64) (invoice : Invoice) (total : Uint128) :
    List (CosmosMsg (NftMsg Metadata)) :=
  if total = invoice.receivable.amount then
    [.wasmExecute config.nftAddress.text (.transferNft invoice.from.text invoiceId.decimal) []]
  else []

/-- Within the receivable both branches write the same record, and differ in the status alone. -/
theorem recordPayment_returns (config : Config) (invoiceId : U64) (invoice : Invoice) (total : Uint128)
    (hle : total ≤ invoice.receivable.amount) (response : Reply) (s : Storage) :
    (recordPayment config invoiceId invoice total response).Returns s
      ⟨response.messages ++ settlement config invoiceId invoice total, response.attributes⟩
      { s with invoice := s.invoice.insert invoiceId (invoice.credited total) } := by
  by_cases ht : total = invoice.receivable.amount
  · simp only [recordPayment, ht, if_true, Table.returns_save_bind, returns_pure, invoiceMap_read,
      invoiceMap_write, settlement, Invoice.credited, Word.minus_self]
    exact ⟨rfl, trivial⟩
  · simp only [recordPayment, ht, if_false, returns_expect_bind, Word.checkedSub_eq_some,
      Table.returns_save_bind, returns_pure, invoiceMap_read, invoiceMap_write, settlement,
      Invoice.credited, List.append_nil]
    exact ⟨_, ⟨hle, rfl⟩, trivial, rfl⟩

private theorem recordPayment_bind {β : Type} (config : Config) (invoiceId : U64) (invoice : Invoice)
    (total : Uint128)
    (hle : total ≤ invoice.receivable.amount) (response : Reply) (f : Reply → Contract β) (s : Storage)
    (b : β) (s' : Storage) :
    Returns (recordPayment config invoiceId invoice total response >>= f) s b s' ↔
      (f ⟨response.messages ++ settlement config invoiceId invoice total, response.attributes⟩).Returns
        { s with invoice := s.invoice.insert invoiceId (invoice.credited total) } b s' :=
  returns_bind_of_run (recordPayment_returns config invoiceId invoice total hle response s) f b s'

/-- What a payment reads, and the amount paid in all once it is entered. -/
structure PaymentBasis where
  fund : Coin
  config : Config
  invoice : Invoice
  total : Uint128

/-- When `payInvoice` returns: one coin of a listed denomination, from the payee of an accepted
invoice that is not yet paid, for no more than what is left of it. -/
structure PaymentReady (s : Storage) (info : MessageInfo) (invoiceId : U64) (b : PaymentBasis) : Prop where
  single : info.funds = [b.fund]
  configured : s.config = some b.config
  listed : b.config.accepts b.fund.denom = true
  stored : s.invoice.lookup invoiceId = some b.invoice
  payee : b.invoice.payeeAddress = info.sender
  accepted : b.invoice.status ≠ .raised
  unpaid : b.invoice.status ≠ .paid
  total : b.total.val = b.invoice.amountPaid.amount.val + b.fund.amount.val
  within : b.total ≤ b.invoice.receivable.amount

/-- What a payment reads is determined by the storage and the coins attached. -/
theorem PaymentReady.unique {s : Storage} {info : MessageInfo} {invoiceId : U64} {b b' : PaymentBasis}
    (h : PaymentReady s info invoiceId b) (h' : PaymentReady s info invoiceId b') : b = b' := by
  obtain ⟨fund, config, invoice, total⟩ := b
  obtain ⟨fund', config', invoice', total'⟩ := b'
  cases h.single.symm.trans h'.single
  cases h.configured.symm.trans h'.configured
  cases h.stored.symm.trans h'.stored
  cases Word.ext (h.total.trans h'.total.symm)
  rfl

def Storage.credited (s : Storage) (invoiceId : U64) (b : PaymentBasis) : Storage :=
  { s with invoice := s.invoice.insert invoiceId (b.invoice.credited b.total) }

/-- The messages of a payment: the token first, when nothing is left to pay, then the coin. -/
def payInvoiceReply (invoiceId : U64) (b : PaymentBasis) : Reply :=
  ⟨settlement b.config invoiceId b.invoice b.total ++ [.bankSend b.invoice.from.text [b.fund]],
    [("invoice_id", invoiceId.decimal), ("method", "pay_invoice"), ("amount", b.fund.amount.decimal),
      ("denom", b.fund.denom)]⟩

/-- A payment sends its one coin on to the creditor, whether or not it settles the invoice. -/
@[simp] theorem sends_payInvoiceReply (invoiceId : U64) (b : PaymentBasis) :
    (payInvoiceReply invoiceId b).sends = [(b.invoice.from.text, [b.fund])] := by
  have hs : (settlement b.config invoiceId b.invoice b.total).filterMap CosmosMsg.transfer = [] := by
    unfold settlement
    split <;> rfl
  rw [Response.sends, payInvoiceReply, List.filterMap_append, hs]
  rfl

/-- A payment orders the transfer of the token exactly when nothing is left to pay after it. -/
@[simp] theorem executes_payInvoiceReply (invoiceId : U64) (b : PaymentBasis) :
    (payInvoiceReply invoiceId b).executes = if b.total = b.invoice.receivable.amount then
      [(b.config.nftAddress.text, .transferNft b.invoice.from.text invoiceId.decimal)] else [] := by
  rw [Response.executes, payInvoiceReply, List.filterMap_append, settlement]
  split <;> rfl

theorem payInvoice_returns (info : MessageInfo) (invoiceId : U64) (s : Storage) (r : Reply) (s' : Storage) :
    (payInvoice info invoiceId).Returns s r s' ↔ ∃ b, PaymentReady s info invoiceId b ∧
      r = payInvoiceReply invoiceId b ∧ s' = s.credited invoiceId b := by
  simp only [payInvoice, onlyCoin_bind, returns_ensure_bind, Item.returns_load_bind, Table.returns_load_bind,
    returns_expect_bind, configItem_read, invoiceMap_read, Word.checkedAdd_eq_some]
  constructor
  · intro hx
    obtain ⟨fund, hf, config, hc, hl, invoice, hi, hp, ha, hu, total, ht, hw, hrest⟩ := hx
    rw [recordPayment_bind _ _ _ _ hw, returns_pure] at hrest
    obtain ⟨rfl, rfl⟩ := hrest
    exact ⟨⟨fund, config, invoice, total⟩, ⟨hf, hc, hl, hi, hp, ha, hu, ht, hw⟩, rfl, rfl⟩
  · intro hx
    obtain ⟨b, ⟨hf, hc, hl, hi, hp, ha, hu, ht, hw⟩, rfl, rfl⟩ := hx
    refine ⟨b.fund, hf, b.config, hc, hl, b.invoice, hi, hp, ha, hu, b.total, ht, hw, ?_⟩
    rw [recordPayment_bind _ _ _ _ hw, returns_pure]
    exact ⟨rfl, rfl⟩

/-- When `acceptInvoice` returns: on an invoice still raised, from its payee. -/
structure AcceptanceReady (s : Storage) (info : MessageInfo) (invoiceId : U64) (invoice : Invoice) : Prop where
  stored : s.invoice.lookup invoiceId = some invoice
  payee : invoice.payeeAddress = info.sender
  raised : invoice.status = .raised

def Storage.acceptedInvoice (s : Storage) (invoiceId : U64) (invoice : Invoice) : Storage :=
  { s with invoice := s.invoice.insert invoiceId { invoice with status := .accepted } }

def acceptInvoiceReply (invoiceId : U64) : Reply :=
  Response.new
    |>.addAttribute "method" "accept_invoice"
    |>.addAttribute "invoice_id" invoiceId.decimal

theorem acceptInvoice_returns (info : MessageInfo) (invoiceId : U64) (s : Storage) (r : Reply) (s' : Storage) :
    (acceptInvoice info invoiceId).Returns s r s' ↔ r = acceptInvoiceReply invoiceId ∧
      ∃ invoice, AcceptanceReady s info invoiceId invoice ∧ s' = s.acceptedInvoice invoiceId invoice := by
  simp only [acceptInvoice, Table.returns_load_bind, returns_ensure_bind, Table.returns_save_bind,
    returns_pure, invoiceMap_read, invoiceMap_write]
  constructor
  · intro hx
    obtain ⟨invoice, hi, hp, hr, rfl, rfl⟩ := hx
    exact ⟨rfl, invoice, ⟨hi, hp, hr⟩, rfl⟩
  · intro hx
    obtain ⟨rfl, invoice, ⟨hi, hp, hr⟩, rfl⟩ := hx
    exact ⟨invoice, hi, hp, hr, rfl, rfl⟩

end ComdexRwa.Core
