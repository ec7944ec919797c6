import ComdexRwa.Core.Chain
import ComdexRwa.Foundation.Transaction

/-! The contract's records and storage cells, with the two functions that sit beside them. -/
namespace ComdexRwa.Core
open Foundation

inductive ContractError where
  | std (e : StdError)
  | unauthorized
  deriving DecidableEq, Repr

def ContractError.generic (msg : String) : ContractError := .std (.genericErr msg)

structure Asset where
  name : String
  denom : String
  decimal : U64
  uri : Option String
  deriving DecidableEq, Repr

structure Config where
  nftAddress : Addr
  owner : Addr
  acceptedAssets : List Asset
  deriving DecidableEq, Repr

def Config.accepts (config : Config) (denom : String) : Bool :=
  config.acceptedAssets.any fun asset => asset.denom == denom

structure Metadata where
  invoiceId : U64
  «from» : Addr
  payeeAddress : Addr
  uri : String
  receivable : Coin
  deriving DecidableEq, Repr

inductive KYCStatus where
  | unverified | inProcess | rejected | approved | reVerify
  deriving DecidableEq, Repr

structure ContactInfo where
  name : String
  companyName : String
  address : String
  phoneNumber : String
  owner : Addr
  emailId : String
  sentRequests : List Addr
  receivedRequests : List Addr
  contacts : List Addr
  kycStatus : KYCStatus
  assignedInvoices : List U64
  generatedInvoices : List U64
  deriving DecidableEq, Repr

inductive ServiceType where
  | unspecified | goods | service
  deriving DecidableEq, Repr

inductive Status where
  | raised | accepted | paid | partiallyPaid
  deriving DecidableEq, Repr

structure Invoice where
  id : U64
  «from» : Addr
  payeeAddress : Addr
  nftId : U64
  docUri : String
  dueAmount : Coin
  receivable : Coin
  amountPaid : Coin
  serviceType : ServiceType
  status : Status
  deriving DecidableEq, Repr

/-- The record of the contract's name and version that migrations consult. -/
structure ContractVersion where
  contract : String
  version : String
  deriving DecidableEq, Repr

structure Storage where
  contractInfo : Option ContractVersion
  contactInfo : Finmap (fun _ : Addr => ContactInfo)
  invoice : Finmap (fun _ : U64 => Invoice)
  config : Option Config
  invoiceId : Option U64

def Storage.empty : Storage := ⟨none, ∅, ∅, none, none⟩

/-- A call on the contract's storage. -/
abbrev Contract (α : Type) := Txn Storage ContractError α

/-- What a call answers; every token message it sends carries invoice metadata or none. -/
abbrev Reply := Response (NftMsg Metadata)

def Cw2.contract : Item Storage StdError ContractVersion :=
  ⟨Storage.contractInfo, fun v s => { s with contractInfo := some v },
    .notFound "ContractVersion" (.item "contract_info")⟩

def contactInfos : Table Storage StdError Addr ContactInfo :=
  ⟨Storage.contactInfo, fun m s => { s with contactInfo := m },
    fun address => .notFound "ContactInfo" (.map "contact_info" (.addr address))⟩

def invoices : Table Storage StdError U64 Invoice :=
  ⟨Storage.invoice, fun m s => { s with invoice := m }, fun id => .notFound "Invoice" (.map "invoice" (.u64 id))⟩

def configs : Item Storage StdError Config :=
  ⟨Storage.config, fun c s => { s with config := some c }, .notFound "Config" (.item "config")⟩

def invoiceIds : Item Storage StdError U64 :=
  ⟨Storage.invoiceId, fun n s => { s with invoiceId := some n }, .notFound "u64" (.item "invoice_id")⟩

/-! The cells as calls use them, whose errors contain those of the storage. -/

def contractItem : Item Storage ContractError ContractVersion := Cw2.contract.under .std
def contactInfoMap : Table Storage ContractError Addr ContactInfo := contactInfos.under .std
def invoiceMap : Table Storage ContractError U64 Invoice := invoices.under .std
def configItem : Item Storage ContractError Config := configs.under .std
def invoiceIdItem : Item Storage ContractError U64 := invoiceIds.under .std

section Cells
variable (s : Storage)

@[simp] theorem contractItem_read : contractItem.read s = s.contractInfo := rfl
@[simp] theorem contractItem_write (v : ContractVersion) :
    contractItem.write v s = { s with contractInfo := some v } := rfl

@[simp] theorem contactInfoMap_read : contactInfoMap.read s = s.contactInfo := rfl
@[simp] theorem contactInfoMap_write (m : Finmap (fun _ : Addr => ContactInfo)) :
    contactInfoMap.write m s = { s with contactInfo := m } := rfl

@[simp] theorem invoiceMap_read : invoiceMap.read s = s.invoice := rfl
@[simp] theorem invoiceMap_write (m : Finmap (fun _ : U64 => Invoice)) :
    invoiceMap.write m s = { s with invoice := m } := rfl

@[simp] theorem configItem_read : configItem.read s = s.config := rfl
@[simp] theorem configItem_write (c : Config) : configItem.write c s = { s with config := some c } := rfl

@[simp] theorem invoiceIdItem_read : invoiceIdItem.read s = s.invoiceId := rfl
@[simp] theorem invoiceIdItem_write (n : U64) :
    invoiceIdItem.write n s = { s with invoiceId := some n } := rfl

end Cells

/-- An absent counter counts as zero; the increment panics at the end of its range. -/
def getInvoiceId : Contract U64 := do
  let id ← invoiceIdItem.mayLoad
  Txn.expect ((id.getD 0).checkedAdd 1)

/-- No sender is passed in, so none is looked at. -/
def setConfig (nftAddress owner : Addr) (acceptedAssets : List Asset) : Contract Reply := do
  let config := { nftAddress, owner, acceptedAssets }
  configItem.save config
  pure Response.new

theorem getInvoiceId_bind {β : Type} (f : U64 → Contract β) (s : Storage) (b : β) (s' : Storage) :
    Txn.Returns (getInvoiceId >>= f) s b s' ↔
      ∃ id : U64, id.val = (s.invoiceId.getD 0).val + 1 ∧ (f id).Returns s b s' := by
  simp only [getInvoiceId, bind_assoc, Item.returns_mayLoad_bind, Txn.returns_expect_bind,
    invoiceIdItem_read, Word.checkedAdd_eq_some]
  exact Iff.rfl

theorem getInvoiceId_returns (s : Storage) (id : U64) (s' : Storage) :
    getInvoiceId.Returns s id s' ↔ id.val = (s.invoiceId.getD 0).val + 1 ∧ s' = s := by
  simp only [getInvoiceId, Item.returns_mayLoad_bind, Txn.returns_expect, invoiceIdItem_read,
    Word.checkedAdd_eq_some]
  exact and_congr Iff.rfl eq_comm

theorem setConfig_returns (nftAddress owner : Addr) (acceptedAssets : List Asset) (s : Storage)
    (r : Reply) (s' : Storage) :
    (setConfig nftAddress owner acceptedAssets).Returns s r s' ↔
      r = Response.new ∧ s' = { s with config := some ⟨nftAddress, owner, acceptedAssets⟩ } := by
  simp only [setConfig, Item.returns_save_bind, Txn.returns_pure, configItem_write]
  exact and_congr eq_comm eq_comm

end ComdexRwa.Core
