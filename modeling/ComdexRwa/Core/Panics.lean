import ComdexRwa.Core.Refusals

/-! Panics of the messages, from the states that runs reach.
Of the seven handlers only the two that compute with amounts can panic there. -/
namespace ComdexRwa.Core
open Foundation Txn

/-- The guards of `payInvoice` that come before its sum. -/
structure PaymentGated (s : Storage) (info : MessageInfo) (invoiceId : U64) (fund : Coin) (config : Config)
    (invoice : Invoice) : Prop where
  single : info.funds = [fund]
  configured : s.config = some config
  listed : config.accepts fund.denom = true
  stored : s.invoice.lookup invoiceId = some invoice
  payee : invoice.payeeAddress = info.sender
  accepted : invoice.status ≠ .raised
  unpaid : invoice.status ≠ .paid

section Handlers
variable {env : Env} {s : Storage} {info : MessageInfo}

private theorem panics_onlyCoin_bind {β : Type} (funds : List Coin) (f : Coin → Contract β) (s : Storage) :
    Panics (onlyCoin funds >>= f) s ↔ ∃ fund, funds = [fund] ∧ (f fund).Panics s := by
  rcases funds with _ | ⟨fund, _ | ⟨second, rest⟩⟩ <;> simp [onlyCoin, Panics, aborts_bind]

/-- A payment panics on the sum alone; what follows the comparison with the receivable is in range. -/
private theorem payInvoice_panics (invoiceId : U64) : (payInvoice info invoiceId).Panics s ↔
    ∃ fund config invoice, PaymentGated s info invoiceId fund config invoice ∧
      2 ^ 128 ≤ invoice.amountPaid.amount.val + fund.amount.val := by
  simp only [payInvoice, panics_onlyCoin_bind, panics_ensure_bind, Item.panics_load_bind,
    Table.panics_load_bind, panics_expect_bind, configItem_read, invoiceMap_read, Word.checkedAdd_eq_none]
  constructor
  · intro hx
    obtain ⟨fund, hf, config, hc, hl, invoice, hi, hp, ha, hu, hsum | ⟨total, _, hw, hrest⟩⟩ := hx
    · exact ⟨fund, config, invoice, ⟨hf, hc, hl, hi, hp, ha, hu⟩, hsum⟩
    · rw [panics_bind_of_run (recordPayment_returns config invoiceId invoice total hw _ s), panics_pure] at hrest
      exact hrest.elim
  · intro hx
    obtain ⟨fund, config, invoice, ⟨hf, hc, hl, hi, hp, ha, hu⟩, hsum⟩ := hx
    exact ⟨fund, hf, config, hc, hl, invoice, hi, hp, ha, hu, .inl hsum⟩

private theorem createRequest_not_panics (address : Addr) : ¬ (createRequest info address).Panics s := by
  simp only [createRequest, panics_ensure_bind, Table.panics_mayLoad_bind, panics_okOr_bind,
    Table.panics_save_bind, panics_pure, and_false, exists_false, not_false_eq_true]

private theorem createProfile_not_panics (name emailId phoneNumber companyName address : String) :
    ¬ (createProfile info name emailId phoneNumber companyName address).Panics s := by
  simp only [createProfile, panics_ensure_bind, Table.panics_mayLoad_bind, Table.panics_save_bind,
    panics_pure, and_false, not_false_eq_true]

private theorem setConfig_not_panics (nftAddress owner : Addr) (acceptedAssets : List Asset) :
    ¬ (setConfig nftAddress owner acceptedAssets).Panics s := by
  simp only [setConfig, Item.panics_save_bind, panics_pure, not_false_eq_true]

private theorem acceptInvoice_not_panics (invoiceId : U64) : ¬ (acceptInvoice info invoiceId).Panics s := by
  simp only [acceptInvoice, Table.panics_load_bind, panics_ensure_bind, Table.panics_save_bind,
    panics_pure, and_false, exists_false, not_false_eq_true]

/-- The handshake of a state reached lets no removal run past the end of a list. -/
private theorem acceptRequest_not_panics (hn : s.notebooks.Reciprocal) (address : Addr) :
    ¬ (acceptRequest info address).Panics s := by
  intro hp
  obtain ⟨t, hp⟩ := hp
  rcases (acceptRequest_aborts hn hp).1 with he | he | he <;> cases he

end Handlers

/-- An invoice that passes the guards, and is declared to be paid beyond its amount. -/
def overdeclares (s : Storage) (info : MessageInfo) (msg : ExecuteMsg) : Prop :=
  ∃ terms config sender receiver, msg = .createInvoice terms ∧
    InvoiceGated s info terms config sender receiver ∧ terms.receivable.amount < terms.amountPaid.amount

/-- A payment that passes the guards, and adds up with what has been paid to no word. -/
def overflows (s : Storage) (info : MessageInfo) (msg : ExecuteMsg) : Prop :=
  ∃ invoiceId fund config invoice, msg = .payInvoice invoiceId ∧
    PaymentGated s info invoiceId fund config invoice ∧
      2 ^ 128 ≤ invoice.amountPaid.amount.val + fund.amount.val

section Laws
variable {env : Env} {h : History} {s : Storage}

private theorem execute_panics_iff (hr : Run (rwa env) h s) (info : MessageInfo) (msg : ExecuteMsg)
    (hids : ∀ terms, msg = .createInvoice terms → s.idsLeft) :
    (Core.execute env info msg).Panics s ↔ overdeclares s info msg ∨ overflows s info msg := by
  constructor
  · intro hp
    cases msg with
    | createRequest address => exact (createRequest_not_panics address hp).elim
    | acceptRequest address => exact (acceptRequest_not_panics (notebooks_reciprocal hr) address hp).elim
    | createProfile => exact (createProfile_not_panics _ _ _ _ _ hp).elim
    | setConfig => exact (setConfig_not_panics _ _ _ hp).elim
    | acceptInvoice invoiceId => exact (acceptInvoice_not_panics invoiceId hp).elim
    | createInvoice terms =>
      obtain ⟨config, sender, receiver, hg, hcut⟩ := createInvoice_panics.mp hp
      rcases hcut with hlt | hno
      · exact .inl ⟨terms, config, sender, receiver, rfl, hg, hlt⟩
      · exact (hno (hids terms rfl)).elim
    | payInvoice invoiceId =>
      obtain ⟨fund, config, invoice, hg, hsum⟩ := (payInvoice_panics invoiceId).mp hp
      exact .inr ⟨invoiceId, fund, config, invoice, rfl, hg, hsum⟩
  · intro hx
    rcases hx with ⟨terms, config, sender, receiver, rfl, hg, hlt⟩ | ⟨invoiceId, fund, config, invoice, rfl, hg, hsum⟩
    · exact createInvoice_panics.mpr ⟨config, sender, receiver, hg, .inl hlt⟩
    · exact (payInvoice_panics invoiceId).mpr ⟨fund, config, invoice, hg, hsum⟩

/-- Every message of every state reached is answered, by a result or by an error, exactly when it
makes neither of the two sums that leave their range. -/
theorem message_answered_iff (hr : Run (rwa env) h s) (info : MessageInfo) (msg : ExecuteMsg)
    (hids : ∀ terms, msg = .createInvoice terms → s.idsLeft) :
    (Core.execute env info msg).Answers s ↔ ¬ overdeclares s info msg ∧ ¬ overflows s info msg := by
  rw [answers_iff, execute_panics_iff hr info msg hids, not_or]

end Laws

/-- The invoice of a hundred dollars, of which forty have been paid. -/
def Sample.begun : List Call := Sample.invoiced ++ [Sample.pay "uusd" 40]

theorem message_answered_iff_of_configured :
    (Core.execute Sample.env ⟨Sample.alice, []⟩ (.createInvoice (Sample.terms 0))).Answers
        (Sample.storage Sample.configured) ↔
      ¬ overdeclares (Sample.storage Sample.configured) ⟨Sample.alice, []⟩ (.createInvoice (Sample.terms 0)) ∧
      ¬ overflows (Sample.storage Sample.configured) ⟨Sample.alice, []⟩ (.createInvoice (Sample.terms 0)) :=
  message_answered_iff (Sample.run Sample.configured (by decide)) ⟨Sample.alice, []⟩ (.createInvoice (Sample.terms 0))
    fun _ _ => by decide

/-- A hundred dollars of which a hundred and one are declared paid, and a payment of all dollars
there can be on top of forty, each on a storage that a run reaches. -/
theorem messages_panic :
    Run (rwa Sample.env) (Sample.history Sample.configured) (Sample.storage Sample.configured) ∧
    ¬ (Core.execute Sample.env ⟨Sample.alice, []⟩ (.createInvoice (Sample.terms 101))).Answers
        (Sample.storage Sample.configured) ∧
    Run (rwa Sample.env) (Sample.history Sample.begun) (Sample.storage Sample.begun) ∧
    ¬ (Core.execute Sample.env ⟨Sample.bob, [⟨"uusd", ⟨2 ^ 128 - 1, by decide⟩⟩]⟩
        (.payInvoice Sample.invoiceId)).Answers (Sample.storage Sample.begun) := by
  refine ⟨Sample.run Sample.configured (by decide), ?_, Sample.run Sample.begun (by decide), ?_⟩
  · rw [answers_iff, not_not]
    exact ⟨_, rfl⟩
  · rw [answers_iff, not_not]
    exact ⟨_, rfl⟩

end ComdexRwa.Core
