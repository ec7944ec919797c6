import ComdexRwa.Core.Invoice
import ComdexRwa.Core.Profile
import ComdexRwa.Foundation.Run

/-! The entry points, and the contract as a system of calls.
`Effect` lists once what a returning call finds, answers and leaves; every law of runs starts there. -/
namespace ComdexRwa.Core
open Foundation Txn

def contractName : String := "core"
def contractVersion : String := "1.1.2"

def getContractVersion : Contract ContractVersion := contractItem.load

def setContractVersion (contract version : String) : Contract Unit := contractItem.save ⟨contract, version⟩

/-- The message of the opening call is not read, and neither are its funds. -/
def instantiate : Contract Reply := do
  setContractVersion contractName contractVersion
  invoiceIdItem.save 1000000
  pure Response.new

inductive ExecuteMsg where
  | createRequest (address : Addr)
  | acceptRequest (address : Addr)
  | createProfile (name emailId phoneNumber companyName address : String)
  | createInvoice (terms : InvoiceTerms)
  | setConfig (nftAddress owner : Addr) (acceptedAssets : List Asset)
  | acceptInvoice (invoiceId : U64)
  | payInvoice (invoiceId : U64)
  deriving DecidableEq, Repr

def execute (env : Env) (info : MessageInfo) : ExecuteMsg → Contract Reply
  | .createRequest address => createRequest info address
  | .acceptRequest address => acceptRequest info address
  | .createProfile name emailId phoneNumber companyName address =>
    createProfile info name emailId phoneNumber companyName address
  | .createInvoice terms => createInvoice env info terms
  | .setConfig nftAddress owner acceptedAssets => setConfig nftAddress owner acceptedAssets
  | .acceptInvoice invoiceId => acceptInvoice info invoiceId
  | .payInvoice invoiceId => payInvoice info invoiceId

/-- Versions are compared as text, byte by byte. -/
def migrate : Contract Reply := do
  let ver ← getContractVersion
  ensure (ver.contract = contractName) (.generic "Can only upgrade from same type")
  ensure (¬ contractVersion < ver.version) (.generic "Cannot upgrade from a newer version")
  setContractVersion contractName contractVersion
  pure Response.new

/-- A call by its entry point. A migration has no sender and carries no coins. -/
inductive Call where
  | instantiate (info : MessageInfo)
  | execute (info : MessageInfo) (msg : ExecuteMsg)
  | migrate
  deriving DecidableEq, Repr

def Call.opens : Call → Bool
  | .instantiate _ => true
  | _ => false

def Call.funds : Call → List Coin
  | .instantiate info => info.funds
  | .execute info _ => info.funds
  | .migrate => []

def dispatch (env : Env) : Call → Contract Reply
  | .instantiate _ => Core.instantiate
  | .execute info msg => Core.execute env info msg
  | .migrate => Core.migrate

/-- The deployed contract: instantiated once, then called in any order by anyone. -/
def rwa (env : Env) : System Storage Call ContractError Reply where
  initial := .empty
  opens c := c.opens = true
  continues c := c.opens = false
  exec := dispatch env

abbrev CallEvent := Event Storage Call ContractError Reply
abbrev History := List CallEvent

/-- The storage that the opening call leaves. -/
def Storage.start : Storage :=
  { Storage.empty with contractInfo := some ⟨contractName, contractVersion⟩, invoiceId := some 1000000 }

/-- What a returning call found, what it answered, and what it left. -/
inductive Effect (env : Env) (s : Storage) : Call → Reply → Storage → Prop where
  | instantiate (info : MessageInfo) : Effect env s (.instantiate info) Response.new
      { s with contractInfo := some ⟨contractName, contractVersion⟩, invoiceId := some 1000000 }
  | createRequest {info : MessageInfo} {address : Addr} {c d : ContactInfo} :
      RequestReady s info address c d → Effect env s (.execute info (.createRequest address))
        (requestReply info.sender address) (s.requested info.sender address c d)
  | acceptRequest {info : MessageInfo} {address : Addr} {c d : ContactInfo} :
      AcceptReady s info address c d → Effect env s (.execute info (.acceptRequest address))
        (acceptRequestReply info.sender) (s.befriended info.sender address c d)
  | createProfile {info : MessageInfo} {name emailId phoneNumber companyName address : String} :
      info.funds = [] → s.contactInfo.lookup info.sender = none →
      Effect env s (.execute info (.createProfile name emailId phoneNumber companyName address))
        (profileReply info.sender)
        (s.opened info.sender (.fresh info.sender name emailId phoneNumber companyName address))
  | createInvoice {info : MessageInfo} {terms : InvoiceTerms} {b : InvoiceBasis} :
      InvoiceReady s info terms b → Effect env s (.execute info (.createInvoice terms))
        (createInvoiceReply env info.sender terms b) (s.invoiced info.sender terms b)
  | setConfig (info : MessageInfo) (nftAddress owner : Addr) (acceptedAssets : List Asset) :
      Effect env s (.execute info (.setConfig nftAddress owner acceptedAssets)) Response.new
        { s with config := some ⟨nftAddress, owner, acceptedAssets⟩ }
  | acceptInvoice {info : MessageInfo} {invoiceId : U64} {invoice : Invoice} :
      AcceptanceReady s info invoiceId invoice → Effect env s (.execute info (.acceptInvoice invoiceId))
        (acceptInvoiceReply invoiceId) (s.acceptedInvoice invoiceId invoice)
  | payInvoice {info : MessageInfo} {invoiceId : U64} {b : PaymentBasis} :
      PaymentReady s info invoiceId b → Effect env s (.execute info (.payInvoice invoiceId))
        (payInvoiceReply invoiceId b) (s.credited invoiceId b)
  | migrate {ver : ContractVersion} :
      s.contractInfo = some ver → ver.contract = contractName → ¬ contractVersion < ver.version →
      Effect env s .migrate Response.new { s with contractInfo := some ⟨contractName, contractVersion⟩ }

theorem Effect.opening (env : Env) (info : MessageInfo) :
    Effect env .empty (.instantiate info) Response.new .start := .instantiate info

private theorem instantiate_returns (s : Storage) (r : Reply) (s' : Storage) :
    Core.instantiate.Returns s r s' ↔ r = Response.new ∧
      s' = { s with contractInfo := some ⟨contractName, contractVersion⟩, invoiceId := some 1000000 } := by
  simp only [Core.instantiate, setContractVersion, Item.returns_save_bind, returns_pure, contractItem_write,
    invoiceIdItem_write]
  exact and_congr eq_comm eq_comm

theorem migrate_returns (s : Storage) (r : Reply) (s' : Storage) :
    Core.migrate.Returns s r s' ↔ r = Response.new ∧ ∃ ver, s.contractInfo = some ver ∧
      ver.contract = contractName ∧ ¬ contractVersion < ver.version ∧
      s' = { s with contractInfo := some ⟨contractName, contractVersion⟩ } := by
  simp only [Core.migrate, getContractVersion, setContractVersion, Item.returns_load_bind,
    returns_ensure_bind, Item.returns_save_bind, returns_pure, contractItem_read, contractItem_write]
  constructor
  · intro hx
    obtain ⟨ver, hv, hn, hl, rfl, rfl⟩ := hx
    exact ⟨rfl, ver, hv, hn, hl, rfl⟩
  · intro hx
    obtain ⟨rfl, ver, hv, hn, hl, rfl⟩ := hx
    exact ⟨ver, hv, hn, hl, rfl, rfl⟩

/-- The handlers return exactly as listed; this is where their own lemmas meet. -/
theorem dispatch_returns (env : Env) (c : Call) (s : Storage) (r : Reply) (s' : Storage) :
    (dispatch env c).Returns s r s' ↔ Effect env s c r s' := by
  constructor
  · intro hx
    match c, hx with
    | .instantiate info, hx =>
      obtain ⟨rfl, rfl⟩ := (instantiate_returns s r s').mp hx
      exact .instantiate info
    | .execute info (.createRequest address), hx =>
      obtain ⟨rfl, c, d, hready, rfl⟩ := (createRequest_returns info address s r s').mp hx
      exact .createRequest hready
    | .execute info (.acceptRequest address), hx =>
      obtain ⟨rfl, c, d, hready, rfl⟩ := (acceptRequest_returns info address s r s').mp hx
      exact .acceptRequest hready
    | .execute info (.createProfile ..), hx =>
      obtain ⟨rfl, hf, hn, rfl⟩ := (createProfile_returns info _ _ _ _ _ s r s').mp hx
      exact .createProfile hf hn
    | .execute info (.createInvoice terms), hx =>
      obtain ⟨b, hready, rfl, rfl⟩ := (createInvoice_returns env info terms s r s').mp hx
      exact .createInvoice hready
    | .execute info (.setConfig nftAddress owner acceptedAssets), hx =>
      obtain ⟨rfl, rfl⟩ := (setConfig_returns nftAddress owner acceptedAssets s r s').mp hx
      exact .setConfig info nftAddress owner acceptedAssets
    | .execute info (.acceptInvoice invoiceId), hx =>
      obtain ⟨rfl, invoice, hready, rfl⟩ := (acceptInvoice_returns info invoiceId s r s').mp hx
      exact .acceptInvoice hready
    | .execute info (.payInvoice invoiceId), hx =>
      obtain ⟨b, hready, rfl, rfl⟩ := (payInvoice_returns info invoiceId s r s').mp hx
      exact .payInvoice hready
    | .migrate, hx =>
      obtain ⟨rfl, ver, hv, hn, hl, rfl⟩ := (migrate_returns s r s').mp hx
      exact .migrate hv hn hl
  · intro he
    cases he with
    | instantiate => exact (instantiate_returns s _ _).mpr ⟨rfl, rfl⟩
    | createRequest hready => exact (createRequest_returns _ _ s _ _).mpr ⟨rfl, _, _, hready, rfl⟩
    | acceptRequest hready => exact (acceptRequest_returns _ _ s _ _).mpr ⟨rfl, _, _, hready, rfl⟩
    | createProfile hf hn => exact (createProfile_returns _ _ _ _ _ _ s _ _).mpr ⟨rfl, hf, hn, rfl⟩
    | createInvoice hready => exact (createInvoice_returns env _ _ s _ _).mpr ⟨_, hready, rfl, rfl⟩
    | setConfig => exact (setConfig_returns _ _ _ s _ _).mpr ⟨rfl, rfl⟩
    | acceptInvoice hready => exact (acceptInvoice_returns _ _ s _ _).mpr ⟨rfl, _, hready, rfl⟩
    | payInvoice hready => exact (payInvoice_returns _ _ s _ _).mpr ⟨_, hready, rfl, rfl⟩
    | migrate hv hn hl => exact (migrate_returns s _ _).mpr ⟨rfl, _, hv, hn, hl, rfl⟩

/-- The opening call is an instantiation, whoever makes it and with whatever funds. -/
theorem opening_returns {env : Env} {c : Call} {r : Reply} {s : Storage} (ho : c.opens = true)
    (hx : (dispatch env c).Returns .empty r s) :
    (∃ info, c = .instantiate info) ∧ r = Response.new ∧ s = .start := by
  have he := (dispatch_returns env c .empty r s).mp hx
  cases he with
  | instantiate info => exact ⟨⟨info, rfl⟩, rfl, rfl⟩
  | _ => cases ho

end ComdexRwa.Core
