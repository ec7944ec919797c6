import ComdexRwa.Core.Runs
import ComdexRwa.Foundation.Footprint

/-! The footprints of the calls: which profiles, invoices and single values each one reads and changes.
Calls of different people on different invoices do not meet, whether they return, are refused or panic. -/
namespace ComdexRwa.Core
open Foundation Txn

/-- Where a value of the storage is kept. -/
inductive Cell where
  | version | config | counter
  | profile (address : Addr)
  | invoice (invoiceId : U64)
  deriving DecidableEq

private def Cell.Val : Cell → Type
  | .version => Option ContractVersion
  | .config => Option Config
  | .counter => Option U64
  | .profile _ => Option ContactInfo
  | .invoice _ => Option Invoice

private def Storage.at (s : Storage) : (cell : Cell) → cell.Val
  | .version => s.contractInfo
  | .config => s.config
  | .counter => s.invoiceId
  | .profile address => s.contactInfo.lookup address
  | .invoice invoiceId => s.invoice.lookup invoiceId

private theorem Storage.ext_at {s t : Storage} (h : ∀ cell, s.at cell = t.at cell) : s = t := by
  obtain ⟨version, profiles, invoices, config, counter⟩ := s
  obtain ⟨version', profiles', invoices', config', counter'⟩ := t
  have hversion : version = version' := h .version
  have hconfig : config = config' := h .config
  have hcounter : counter = counter' := h .counter
  have hprofiles : profiles = profiles' := Finmap.ext_lookup fun address => h (.profile address)
  have hinvoices : invoices = invoices' := Finmap.ext_lookup fun invoiceId => h (.invoice invoiceId)
  rw [hversion, hconfig, hcounter, hprofiles, hinvoices]

private def layout : Layout Storage Cell := ⟨Cell.Val, Storage.at, fun _ _ => Storage.ext_at⟩

/-- The cells of a call. An invoice is entered under the id that follows the counter. -/
def Call.footprint (s : Storage) : Call → Footprint Cell
  | .instantiate _ => ⟨∅, {.version, .counter}⟩
  | .execute info (.createRequest address) => ⟨∅, {.profile info.sender, .profile address}⟩
  | .execute info (.acceptRequest address) => ⟨∅, {.profile info.sender, .profile address}⟩
  | .execute info (.createProfile ..) => ⟨∅, {.profile info.sender}⟩
  | .execute info (.createInvoice terms) => ⟨{.config}, {.counter, .profile info.sender,
      .profile terms.payeeAddress} ∪ {cell | ∃ id, cell = .invoice id ∧ id.val = (s.invoiceId.getD 0).val + 1}⟩
  | .execute _ (.setConfig ..) => ⟨∅, {.config}⟩
  | .execute _ (.acceptInvoice invoiceId) => ⟨∅, {.invoice invoiceId}⟩
  | .execute _ (.payInvoice invoiceId) => ⟨{.config}, {.invoice invoiceId}⟩
  | .migrate => ⟨∅, {.version}⟩

section Cells

private theorem contractItem_liesAt : contractItem.LiesAt layout .version :=
  ⟨fun _ _ h => h, fun _ _ _ => rfl, fun _ _ other hne => by cases other <;> first | rfl | exact (hne rfl).elim⟩

private theorem configItem_liesAt : configItem.LiesAt layout .config :=
  ⟨fun _ _ h => h, fun _ _ _ => rfl, fun _ _ other hne => by cases other <;> first | rfl | exact (hne rfl).elim⟩

private theorem invoiceIdItem_liesAt : invoiceIdItem.LiesAt layout .counter :=
  ⟨fun _ _ h => h, fun _ _ _ => rfl, fun _ _ other hne => by cases other <;> first | rfl | exact (hne rfl).elim⟩

private theorem contactInfoMap_liesAt : contactInfoMap.LiesAt layout .profile := by
  refine ⟨fun _ _ _ h => h, fun k a s t => ?_, fun k a s other hne => ?_⟩
  · exact (Finmap.lookup_insert s.contactInfo).trans (Finmap.lookup_insert t.contactInfo).symm
  · cases other with
    | profile address => exact Finmap.lookup_insert_of_ne s.contactInfo fun h => hne (congrArg Cell.profile h)
    | _ => rfl

private theorem invoiceMap_liesAt : invoiceMap.LiesAt layout .invoice := by
  refine ⟨fun _ _ _ h => h, fun k a s t => ?_, fun k a s other hne => ?_⟩
  · exact (Finmap.lookup_insert s.invoice).trans (Finmap.lookup_insert t.invoice).symm
  · cases other with
    | invoice invoiceId => exact Finmap.lookup_insert_of_ne s.invoice fun h => hne (congrArg Cell.invoice h)
    | _ => rfl

end Cells

section Handlers
variable (env : Env) (info : MessageInfo) (s : Storage)

private theorem createRequest_keepsTo (address : Addr) : KeepsTo layout (createRequest info address).ending
    ((Call.execute info (.createRequest address)).footprint s) s := by
  unfold createRequest
  apply keepsTo_ensure_bind
  intro _
  apply Table.keepsTo_mayLoad_bind contactInfoMap_liesAt (by simp [Call.footprint, Footprint.reads])
  apply keepsTo_okOr_bind
  intro contactInfo _
  apply keepsTo_ensure_bind
  intro _
  apply keepsTo_ensure_bind
  intro _
  apply Table.keepsTo_save_bind contactInfoMap_liesAt (by simp [Call.footprint])
  apply Table.keepsTo_mayLoad_bind contactInfoMap_liesAt (by simp [Call.footprint, Footprint.reads])
  apply keepsTo_okOr_bind
  intro requestedContactInfo _
  apply Table.keepsTo_save_bind contactInfoMap_liesAt (by simp [Call.footprint])
  exact keepsTo_pure _

private theorem acceptRequest_keepsTo (address : Addr) : KeepsTo layout (acceptRequest info address).ending
    ((Call.execute info (.acceptRequest address)).footprint s) s := by
  unfold acceptRequest
  apply keepsTo_ensure_bind
  intro _
  apply Table.keepsTo_mayLoad_bind contactInfoMap_liesAt (by simp [Call.footprint, Footprint.reads])
  apply keepsTo_okOr_bind
  intro contactInfo _
  apply keepsTo_ensure_bind
  intro _
  apply keepsTo_expect_bind
  intro receivedRequests _
  apply Table.keepsTo_save_bind contactInfoMap_liesAt (by simp [Call.footprint])
  apply Table.keepsTo_mayLoad_bind contactInfoMap_liesAt (by simp [Call.footprint, Footprint.reads])
  apply keepsTo_okOr_bind
  intro requestedContactInfo _
  apply keepsTo_expect_bind
  intro sentRequests _
  apply Table.keepsTo_save_bind contactInfoMap_liesAt (by simp [Call.footprint])
  exact keepsTo_pure _

private theorem createProfile_keepsTo (name emailId phoneNumber companyName address : String) :
    KeepsTo layout (createProfile info name emailId phoneNumber companyName address).ending
      ((Call.execute info (.createProfile name emailId phoneNumber companyName address)).footprint s) s := by
  unfold createProfile
  apply keepsTo_ensure_bind
  intro _
  apply Table.keepsTo_mayLoad_bind contactInfoMap_liesAt (by simp [Call.footprint, Footprint.reads])
  apply keepsTo_ensure_bind
  intro _
  apply Table.keepsTo_save_bind contactInfoMap_liesAt (by simp [Call.footprint])
  exact keepsTo_pure _

/-- The id of the invoice comes from the counter before anything is written. -/
private theorem createInvoice_keepsTo (terms : InvoiceTerms) : KeepsTo layout (createInvoice env info terms).ending
    ((Call.execute info (.createInvoice terms)).footprint s) s := by
  unfold createInvoice
  apply keepsTo_ensure_bind
  intro _
  apply keepsTo_ensure_bind
  intro _
  apply keepsTo_ensure_bind
  intro _
  apply Item.keepsTo_load_bind configItem_liesAt (by simp [Call.footprint, Footprint.reads])
  intro config _
  apply keepsTo_ensure_bind
  intro _
  apply Table.keepsTo_mayLoad_bind contactInfoMap_liesAt (by simp [Call.footprint, Footprint.reads])
  apply keepsTo_okOr_bind
  intro senderContactInfo _
  apply keepsTo_ensure_bind
  intro _
  apply keepsTo_ensure_bind
  intro _
  apply Table.keepsTo_mayLoad_bind contactInfoMap_liesAt (by simp [Call.footprint, Footprint.reads])
  apply keepsTo_okOr_bind
  intro receiverContactInfo _
  apply keepsTo_ensure_bind
  intro _
  apply keepsTo_expect_bind
  intro dueAmount _
  rw [getInvoiceId, bind_assoc]
  apply Item.keepsTo_mayLoad_bind invoiceIdItem_liesAt (by simp [Call.footprint, Footprint.reads])
  apply keepsTo_expect_bind
  intro invoiceId hid
  have hid : invoiceId.val = (s.invoiceId.getD 0).val + 1 := (Word.checkedAdd_eq_some _ _ _).mp hid
  apply Table.keepsTo_save_bind invoiceMap_liesAt (by simp [Call.footprint, hid])
  apply Table.keepsTo_save_bind contactInfoMap_liesAt (by simp [Call.footprint])
  apply Table.keepsTo_save_bind contactInfoMap_liesAt (by simp [Call.footprint])
  apply keepsTo_expect_bind
  intro next _
  apply Item.keepsTo_save_bind invoiceIdItem_liesAt (by simp [Call.footprint])
  exact keepsTo_pure _

private theorem setConfig_keepsTo (nftAddress owner : Addr) (acceptedAssets : List Asset) :
    KeepsTo layout (setConfig nftAddress owner acceptedAssets).ending
      ((Call.execute info (.setConfig nftAddress owner acceptedAssets)).footprint s) s := by
  unfold setConfig
  apply Item.keepsTo_save_bind configItem_liesAt (by simp [Call.footprint])
  exact keepsTo_pure _

private theorem acceptInvoice_keepsTo (invoiceId : U64) : KeepsTo layout (acceptInvoice info invoiceId).ending
    ((Call.execute info (.acceptInvoice invoiceId)).footprint s) s := by
  unfold acceptInvoice
  apply Table.keepsTo_load_bind invoiceMap_liesAt (by simp [Call.footprint, Footprint.reads])
  intro invoice _
  apply keepsTo_ensure_bind
  intro _
  apply keepsTo_ensure_bind
  intro _
  apply Table.keepsTo_save_bind invoiceMap_liesAt (by simp [Call.footprint])
  exact keepsTo_pure _

/-- Both branches of a payment write the one invoice. -/
private theorem recordPayment_keepsTo {F : Footprint Cell} {invoiceId : U64} (hcell : .invoice invoiceId ∈ F.writes)
    (config : Config) (invoice : Invoice) (total : Uint128) (response : Reply) :
    KeepsTo layout (recordPayment config invoiceId invoice total response).ending F s := by
  unfold recordPayment
  split
  · apply Table.keepsTo_save_bind invoiceMap_liesAt hcell
    exact keepsTo_pure _
  · apply keepsTo_expect_bind
    intro dueAmount _
    apply Table.keepsTo_save_bind invoiceMap_liesAt hcell
    exact keepsTo_pure _

private theorem onlyCoin_keepsTo {F : Footprint Cell} (funds : List Coin) :
    KeepsTo layout (onlyCoin funds).ending F s := by
  rcases funds with _ | ⟨fund, _ | ⟨second, rest⟩⟩
  · exact keepsTo_throw _
  · exact keepsTo_pure _
  · exact keepsTo_throw _

private theorem payInvoice_keepsTo (invoiceId : U64) : KeepsTo layout (payInvoice info invoiceId).ending
    ((Call.execute info (.payInvoice invoiceId)).footprint s) s := by
  unfold payInvoice
  apply keepsTo_bind (onlyCoin_keepsTo s _)
  intro fund s₁ _
  apply Item.keepsTo_load_bind configItem_liesAt (by simp [Call.footprint, Footprint.reads])
  intro config _
  apply keepsTo_ensure_bind
  intro _
  apply Table.keepsTo_load_bind invoiceMap_liesAt (by simp [Call.footprint, Footprint.reads])
  intro invoice _
  apply keepsTo_ensure_bind
  intro _
  apply keepsTo_ensure_bind
  intro _
  apply keepsTo_ensure_bind
  intro _
  apply keepsTo_expect_bind
  intro total _
  apply keepsTo_ensure_bind
  intro _
  apply keepsTo_bind (recordPayment_keepsTo _ (by simp [Call.footprint]) _ _ _ _)
  intro response s₂ _
  exact keepsTo_pure _

private theorem instantiate_keepsTo :
    KeepsTo layout Core.instantiate.ending ((Call.instantiate info).footprint s) s := by
  unfold Core.instantiate setContractVersion
  apply Item.keepsTo_save_bind contractItem_liesAt (by simp [Call.footprint])
  apply Item.keepsTo_save_bind invoiceIdItem_liesAt (by simp [Call.footprint])
  exact keepsTo_pure _

private theorem migrate_keepsTo : KeepsTo layout Core.migrate.ending (Call.migrate.footprint s) s := by
  unfold Core.migrate getContractVersion setContractVersion
  apply Item.keepsTo_load_bind contractItem_liesAt (by simp [Call.footprint, Footprint.reads])
  intro ver _
  apply keepsTo_ensure_bind
  intro _
  apply keepsTo_ensure_bind
  intro _
  apply Item.keepsTo_save_bind contractItem_liesAt (by simp [Call.footprint])
  exact keepsTo_pure _

end Handlers

/-- Every call keeps to its cells, however it ends. -/
private theorem dispatch_keepsTo (env : Env) (c : Call) (s : Storage) :
    KeepsTo layout (dispatch env c).ending (c.footprint s) s := by
  match c with
  | .instantiate info => exact instantiate_keepsTo info s
  | .execute info (.createRequest address) => exact createRequest_keepsTo info s address
  | .execute info (.acceptRequest address) => exact acceptRequest_keepsTo info s address
  | .execute info (.createProfile ..) => exact createProfile_keepsTo info s _ _ _ _ _
  | .execute info (.createInvoice terms) => exact createInvoice_keepsTo env info s terms
  | .execute info (.setConfig ..) => exact setConfig_keepsTo info s _ _ _
  | .execute info (.acceptInvoice invoiceId) => exact acceptInvoice_keepsTo info s invoiceId
  | .execute info (.payInvoice invoiceId) => exact payInvoice_keepsTo info s invoiceId
  | .migrate => exact migrate_keepsTo s

/-- Only the counter decides which cells a call has, and who goes by the counter reads it. -/
private theorem footprint_stable (c : Call) {s t : Storage} (h : layout.Alike (c.footprint s).reads s t) :
    c.footprint t = c.footprint s := by
  match c, h with
  | .execute info (.createInvoice terms), h =>
    have hcounter : s.invoiceId = t.invoiceId := h .counter (by simp [Call.footprint, Footprint.reads])
    simp only [Call.footprint, hcounter]
  | .instantiate _, _ => rfl
  | .execute _ (.createRequest _), _ => rfl
  | .execute _ (.acceptRequest _), _ => rfl
  | .execute _ (.createProfile ..), _ => rfl
  | .execute _ (.setConfig ..), _ => rfl
  | .execute _ (.acceptInvoice _), _ => rfl
  | .execute _ (.payInvoice _), _ => rfl
  | .migrate, _ => rfl

private def footprints (env : Env) : (rwa env).Footprints layout :=
  ⟨fun c s => c.footprint s, dispatch_keepsTo env, fun c _ _ => footprint_stable c⟩

/-- Calls that are apart from each other, made in any order: each answers what it would have answered alone,
and the storage ends the same. -/
theorem apart_calls_commute (env : Env) (s : Storage) (cs : List Call)
    (hapart : cs.Pairwise fun c d => (c.footprint s).Apart (d.footprint s)) (ds : List Call) (hp : cs.Perm ds) :
    (∀ e ∈ ((rwa env).replay s ds).1, e.reply = ((rwa env).transact s e.call).reply) ∧
      ((rwa env).replay s ds).2 = ((rwa env).replay s cs).2 := by
  have hapart' : ds.Pairwise fun c d => (c.footprint s).Apart (d.footprint s) :=
    hp.pairwise hapart fun h => h.symm
  constructor
  · intro e he
    exact (footprints env).reply_replay hapart' he
  · exact ((footprints env).replay_perm hp hapart).symm

/-- Bob pays ten dollars while a third account opens its profile. -/
theorem apart_calls_commute_of_invoiced :
    let s := Sample.storage Sample.invoiced
    let pay := Sample.pay "uusd" 10
    let join := Sample.call ⟨"carol"⟩ (.createProfile "Carol" "" "" "" "")
    ((rwa Sample.env).replay s [join, pay]).2 = ((rwa Sample.env).replay s [pay, join]).2 := by
  refine (apart_calls_commute Sample.env _ [Sample.pay "uusd" 10, _] ?_ _ (.swap _ _ [])).2
  apply List.pairwise_pair.mpr
  constructor <;> simp [Call.footprint, Footprint.reads, Sample.pay, Sample.call]

end ComdexRwa.Core
