import ComdexRwa.Core.ContactViews
import ComdexRwa.Core.TotalsRange
import ComdexRwa.Core.Views

/-! The query entry point: which messages are answered in the states that runs reach, and what cuts off the
others. A refusal names the record that is missing, and only a total that is out of range panics. -/
namespace ComdexRwa.Core
open Foundation Query

def getConfig : ContractQuery Config := loadItem configs

def getContactInfo (address : Addr) : ContractQuery ContactInfo := load contactInfos address

inductive QueryMsg where
  | getInvoice (invoiceId : U64)
  | getConfig
  | getLatestInvoiceId
  | getContactInfo (address : Addr)
  | getPendingInvoices (address : Addr)
  | getExecutedInvoices (address : Addr)
  | getTotalReceivables (address : Addr)
  | getTotalPayables (address : Addr)
  | getPendingContactRequests (address : Addr)
  | getSentContactRequests (address : Addr)
  | getAllContacts (address : Addr)
  deriving DecidableEq, Repr

/-- What is encoded as the answer; the encoding determines it. -/
inductive Binary where
  | invoice (invoice : Invoice)
  | config (config : Config)
  | invoiceId (invoiceId : U64)
  | contactInfo (contactInfo : ContactInfo)
  | requests (response : RequestResponse)
  | coins (coins : List Coin)
  | contacts (response : List ContactResponse)
  deriving DecidableEq, Repr

def query : QueryMsg → ContractQuery Binary
  | .getInvoice invoiceId => do pure (.invoice (← getInvoice invoiceId))
  | .getConfig => do pure (.config (← getConfig))
  | .getLatestInvoiceId => do pure (.invoiceId (← getLatestInvoiceId))
  | .getContactInfo address => do pure (.contactInfo (← getContactInfo address))
  | .getPendingInvoices address => do pure (.requests (← getPendingInvoices address))
  | .getExecutedInvoices address => do pure (.requests (← getExecutedInvoices address))
  | .getTotalReceivables address => do pure (.coins (← getTotalReceivables address))
  | .getTotalPayables address => do pure (.coins (← getTotalPayables address))
  | .getPendingContactRequests address => do pure (.contacts (← getPendingContactRequests address))
  | .getSentContactRequests address => do pure (.contacts (← getSentContactRequests address))
  | .getAllContacts address => do pure (.contacts (← getAllContacts address))

/-- What a query needs to find. The views and the latest id need nothing. -/
def Answerable (s : Storage) : QueryMsg → Prop
  | .getInvoice invoiceId => invoiceId ∈ s.invoice
  | .getConfig => s.config ≠ none
  | .getContactInfo address => address ∈ s.contactInfo
  | .getTotalReceivables address => ∀ denom, s.outstanding Invoice.from address denom < 2 ^ 128
  | .getTotalPayables address => ∀ denom, s.outstanding Invoice.payeeAddress address denom < 2 ^ 128
  | _ => True

/-- What cuts off a query that does not find it: the error that names the record asked for. -/
def QueryMsg.refusal : QueryMsg → Abort StdError
  | .getInvoice invoiceId => .error (.notFound "Invoice" (.map "invoice" (.u64 invoiceId)))
  | .getConfig => .error (.notFound "Config" (.item "config"))
  | .getContactInfo address => .error (.notFound "ContactInfo" (.map "contact_info" (.addr address)))
  | _ => .panic

section Parts
variable {α : Type} {s : Storage}

/-- Encoding a result changes neither when there is one nor what cuts it off. -/
private theorem encoded {q : ContractQuery α} {f : α → Binary} {P : Prop} {e : Abort StdError}
    (hgives : (∃ a, q.Gives s a) ↔ P) (hfails : ¬ P → q.Fails s e) :
    ((∃ b, Gives (do pure (f (← q))) s b) ↔ P) ∧ (¬ P → Fails (do pure (f (← q))) s e) := by
  constructor
  · rw [← hgives]
    constructor
    · intro hx
      obtain ⟨b, hb⟩ := hx
      obtain ⟨a, ha, _⟩ := (gives_bind q _ s b).mp hb
      exact ⟨a, ha⟩
    · intro hx
      obtain ⟨a, ha⟩ := hx
      exact ⟨f a, (gives_bind_of ha _ _).mpr ((gives_pure _ _ s).mpr rfl)⟩
  · intro hno
    exact (fails_bind q _ s e).mpr (.inl (hfails hno))

private theorem encoded_always {q : ContractQuery α} {f : α → Binary} {e : Abort StdError}
    (hgives : ∃ a, q.Gives s a) :
    ((∃ b, Gives (do pure (f (← q))) s b) ↔ True) ∧ (¬ True → Fails (do pure (f (← q))) s e) :=
  encoded (iff_of_true hgives trivial) fun hno => (hno trivial).elim

private theorem raiseTotal_panicsOnly (invoice : Invoice) (totals : List Coin) :
    (raiseTotal invoice totals).PanicsOnly s := by
  induction totals with
  | nil => exact panicsOnly_pure _ s
  | cons coin rest ih =>
    unfold raiseTotal
    split
    · apply panicsOnly_bind (panicsOnly_expect _ s)
      intro left
      apply panicsOnly_bind (panicsOnly_expect _ s)
      intro amount
      exact panicsOnly_pure _ s
    · apply panicsOnly_bind ih
      intro found
      exact panicsOnly_pure _ s

private theorem addInvoice_panicsOnly (invoice : Invoice) (totals : List Coin) :
    (addInvoice invoice totals).PanicsOnly s := by
  apply panicsOnly_bind (raiseTotal_panicsOnly invoice totals)
  intro found
  rcases found with ⟨_ | _, totals⟩
  · apply panicsOnly_bind (panicsOnly_expect _ s)
    intro amount
    exact panicsOnly_pure _ s
  · exact panicsOnly_pure _ s

private theorem totalInvoice_panicsOnly (totals : List Coin) (invoiceId : U64) :
    (totalInvoice totals invoiceId).PanicsOnly s := by
  apply panicsOnly_bind (panicsOnly_mayLoad invoices invoiceId s)
  intro found
  cases found with
  | none => exact panicsOnly_pure _ s
  | some invoice =>
    change PanicsOnly (if invoice.status ≠ .paid then addInvoice invoice totals else pure totals) s
    split
    · exact addInvoice_panicsOnly invoice totals
    · exact panicsOnly_pure _ s

/-- The totals check their sums and nothing else. -/
private theorem totalInvoices_panicsOnly (index : ContactInfo → List U64) (address : Addr) :
    (totalInvoices index address).PanicsOnly s := by
  apply panicsOnly_bind (panicsOnly_mayLoad contactInfos address s)
  intro found
  cases found with
  | none => exact panicsOnly_pure _ s
  | some contactInfo => exact panicsOnly_foldlM totalInvoice_panicsOnly _ _

end Parts

section Laws
variable {env : Env} {h : History} {s : Storage}

/-- In every state reached, each of the three lists of contacts can be shown, and is described as it stands. -/
theorem contacts_given (hr : Run (rwa env) h s) (address : Addr) :
    (∃ pending, (getPendingContactRequests address).Gives s pending ∧
        List.Forall₂ (Describes s) (s.receivedRequests address) pending) ∧
      (∃ sent, (getSentContactRequests address).Gives s sent ∧
        List.Forall₂ (Describes s) (s.sentRequests address) sent) ∧
      ∃ all, (getAllContacts address).Gives s all ∧ List.Forall₂ (Describes s) (s.contacts address) all := by
  have hn := notebooks_reciprocal hr
  refine ⟨?_, ?_, ?_⟩
  · apply viewContacts_gives
    intro a ha
    have hsent : address ∈ s.notebooks.sent a := hn.sent_iff.mpr ha
    exact profile_of_listed hr hsent
  · apply viewContacts_gives
    intro a ha
    have hreceived : address ∈ s.notebooks.received a := hn.sent_iff.mp ha
    exact profile_of_listed hr hreceived
  · apply viewContacts_gives
    intro a ha
    have hcontacts : address ∈ s.notebooks.contacts a := hn.contacts_iff.mp ha
    exact profile_of_listed hr hcontacts

/-- In every state reached, a query is answered exactly when it finds what it needs, and is otherwise cut off
by the error that names the missing record, or by the panic of a total. -/
theorem query_outcome (hr : Run (rwa env) h s) (msg : QueryMsg) :
    ((∃ answer, (query msg).Gives s answer) ↔ Answerable s msg) ∧
      (¬ Answerable s msg → (query msg).Fails s msg.refusal) := by
  obtain ⟨count, hi⟩ := indexed hr
  have hle := paid_within hr
  cases msg with
  | getInvoice invoiceId =>
    have hfound : (∃ invoice, (getInvoice invoiceId).Gives s invoice) ↔ invoiceId ∈ s.invoice := by
      rw [Finmap.mem_iff]
      exact exists_congr fun invoice => gives_load invoices invoiceId s invoice
    exact encoded hfound fun hno => fails_load invoices invoiceId s (Finmap.lookup_eq_none.mpr hno)
  | getConfig =>
    have hfound : (∃ config, getConfig.Gives s config) ↔ s.config ≠ none := by
      rw [Option.ne_none_iff_exists']
      exact exists_congr fun config => gives_loadItem configs s config
    exact encoded hfound fun hno => fails_loadItem configs s (not_not.mp hno)
  | getLatestInvoiceId => exact encoded_always ⟨count, (gives_loadItem invoiceIds s count).mpr hi.present⟩
  | getContactInfo address =>
    have hfound : (∃ contactInfo, (getContactInfo address).Gives s contactInfo) ↔ address ∈ s.contactInfo := by
      rw [Finmap.mem_iff]
      exact exists_congr fun contactInfo => gives_load contactInfos address s contactInfo
    exact encoded hfound fun hno => fails_load contactInfos address s (Finmap.lookup_eq_none.mpr hno)
  | getPendingInvoices address =>
    obtain ⟨view, hgives, _⟩ := viewInvoices_gives hr (fun status => status ≠ .paid) address
    exact encoded_always ⟨view, hgives⟩
  | getExecutedInvoices address =>
    obtain ⟨view, hgives, _⟩ := viewInvoices_gives hr (fun status => status = .paid) address
    exact encoded_always ⟨view, hgives⟩
  | getTotalReceivables address =>
    have hiff := accountTotals_iff hle (hi.generated address)
    exact encoded hiff fun hno => (totalInvoices_panicsOnly _ address).fails (hiff.not.mpr hno)
  | getTotalPayables address =>
    have hiff := accountTotals_iff hle (hi.assigned address)
    exact encoded hiff fun hno => (totalInvoices_panicsOnly _ address).fails (hiff.not.mpr hno)
  | getPendingContactRequests address =>
    obtain ⟨view, hgives, _⟩ := (contacts_given hr address).1
    exact encoded_always ⟨view, hgives⟩
  | getSentContactRequests address =>
    obtain ⟨view, hgives, _⟩ := (contacts_given hr address).2.1
    exact encoded_always ⟨view, hgives⟩
  | getAllContacts address =>
    obtain ⟨view, hgives, _⟩ := (contacts_given hr address).2.2
    exact encoded_always ⟨view, hgives⟩

end Laws

/-- Nobody has the profile of a third account, and asking for it says so. -/
theorem query_outcome_of_settled :
    (query (.getContactInfo ⟨"carol"⟩)).Fails (Sample.storage Sample.settled)
      (.error (.notFound "ContactInfo" (.map "contact_info" (.addr ⟨"carol"⟩)))) :=
  (query_outcome (Sample.run Sample.settled (by decide)) (.getContactInfo ⟨"carol"⟩)).2 (by
    rw [Answerable, ← Finmap.lookup_eq_none]
    decide)

end ComdexRwa.Core
