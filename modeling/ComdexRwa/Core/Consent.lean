import ComdexRwa.Core.ContactBook
import ComdexRwa.Core.InvoiceBook
import ComdexRwa.Foundation.Consent

/-! Consent before invoicing. A run traces out a handshake, so that every contact goes back to a
request and its acceptance, and every invoice to a contact. -/
namespace ComdexRwa.Core
open Foundation

/-- The request or acceptance that an event is, when it is one and has returned. -/
def CallEvent.handshake (e : CallEvent) : Handshake.Move Addr :=
  match e.call, e.reply with
  | .execute info (.createRequest address), .ok _ => .ask info.sender address
  | .execute info (.acceptRequest address), .ok _ => .grant address info.sender
  | _, _ => .idle

def History.handshakes (h : History) : List (Handshake.Move Addr) := h.map CallEvent.handshake

/-- An event that stored the invoice `k`, raised by `a` on `b`. -/
def CallEvent.Raises (e : CallEvent) (k : U64) (a b : Addr) : Prop :=
  ∃ info terms r, e.call = .execute info (.createInvoice terms) ∧ e.reply = .ok r ∧ info.sender = a ∧
    terms.payeeAddress = b ∧ e.before.invoice.lookup k = none ∧ ∃ invoice, e.after.invoice.lookup k = some invoice

/-- The request at position `j`, its acceptance at `i` and the invoice raised at `n`, in this order,
with the two parties each other's contacts from the acceptance on. -/
structure Consented (h : History) (k : U64) (a b : Addr) (j i n : Nat) : Prop where
  order : j < i ∧ i < n
  agreed : (h.handshakes[j]? = some (.ask a b) ∧ h.handshakes[i]? = some (.grant a b)) ∨
    (h.handshakes[j]? = some (.ask b a) ∧ h.handshakes[i]? = some (.grant b a))
  raised : ∃ e, h[n]? = some e ∧ e.Raises k a b
  lasting : ∀ m e, i ≤ m → h[m]? = some e → b ∈ e.after.contacts a ∧ a ∈ e.after.contacts b

section Traces
variable {env : Env} {h : History} {s : Storage} {a b : Addr}

private theorem handshake_of_not_meets {e : CallEvent} (hm : e.call.meets = false) : e.handshake = .idle := by
  unfold CallEvent.handshake
  split
  · rename_i hc _
    rw [hc] at hm
    cases hm
  · rename_i hc _
    rw [hc] at hm
    cases hm
  · rfl

/-- Every run makes the moves of a handshake, and its contact lists show where they have led. -/
private theorem traces (hr : Run (rwa env) h s) : Handshake.Trace h.handshakes s.notebooks.counts := by
  have hsnoc (h : History) (e : CallEvent) : History.handshakes (h ++ [e]) = h.handshakes ++ [e.handshake] := by
    rw [History.handshakes, List.map_append]
    rfl
  refine rwa_rule (I := fun h s => Handshake.Trace h.handshakes s.notebooks.counts) ?_ ?_ ?_ hr
  · intro info
    exact .idle .start
  · intro h s c r s' hr ht _ he
    have hm := he.contactMove (notebooks_reciprocal hr)
    rw [hsnoc]
    generalize s'.notebooks = n at hm
    cases hm with
    | keep hmeets =>
      rw [handshake_of_not_meets hmeets]
      exact .idle ht
    | ask hready =>
      rw [Notebooks.counts_ask]
      exact .ask ht hready.distinct (List.count_eq_zero.mpr hready.unasked)
    | grant hready hne =>
      rw [Notebooks.counts_grant _ _ _ hne]
      exact .grant ht hne (List.count_pos_iff.mpr (hready.pending hne))
  · intro h s c e _ ht _ _
    have hidle : CallEvent.handshake ⟨s, c, .error e, s⟩ = .idle := by
      unfold CallEvent.handshake
      split
      · rename_i hok
        cases hok
      · rename_i hok
        cases hok
      · rfl
    rw [hsnoc, hidle]
    exact .idle ht

/-- Every contact of a state reached goes back to a request and a later acceptance of it. -/
private theorem contact_agreed (hr : Run (rwa env) h s) (hb : b ∈ s.contacts a) : ∃ j i : Nat, j < i ∧
    ((h.handshakes[j]? = some (.ask a b) ∧ h.handshakes[i]? = some (.grant a b)) ∨
      (h.handshakes[j]? = some (.ask b a) ∧ h.handshakes[i]? = some (.grant b a))) := by
  have ht := traces hr
  have hpos : 0 < h.handshakes.countP fun m => m.links a b := by
    rw [← ht.linked_eq a b]
    exact List.count_pos_iff.mpr hb
  obtain ⟨m, hmem, hlinks⟩ := List.countP_pos_iff.mp hpos
  obtain ⟨i, hi⟩ := List.mem_iff_getElem?.mp hmem
  obtain ⟨f, hf⟩ := ht.answers
  rcases of_decide_eq_true hlinks with rfl | rfl
  · obtain ⟨hlt, hj⟩ := hf.earlier i a b hi
    exact ⟨f i, i, hlt, .inl ⟨hj, hi⟩⟩
  · obtain ⟨hlt, hj⟩ := hf.earlier i b a hi
    exact ⟨f i, i, hlt, .inr ⟨hj, hi⟩⟩

/-- Whoever has accepted, or was accepted, is a contact in the state reached. -/
private theorem contacts_of_grant (hr : Run (rwa env) h s) {i : Nat} {m : Handshake.Move Addr}
    (hi : h.handshakes[i]? = some m) (hm : m.links a b) : b ∈ s.contacts a ∧ a ∈ s.contacts b := by
  have hpos : 0 < h.handshakes.countP fun m => m.links a b :=
    List.countP_pos_iff.mpr ⟨m, List.mem_of_getElem? hi, decide_eq_true hm⟩
  rw [← (traces hr).linked_eq a b] at hpos
  have hb : b ∈ s.contacts a := List.count_pos_iff.mp hpos
  exact ⟨hb, (notebooks_reciprocal hr).contacts_iff.mp hb⟩

/-- Entering an invoice under a free id raises it. -/
theorem raises_invoiced {info : MessageInfo} {terms : InvoiceTerms} {basis : InvoiceBasis} {r : Reply}
    (hfree : basis.id ∉ s.invoice) :
    CallEvent.Raises ⟨s, .execute info (.createInvoice terms), .ok r, s.invoiced info.sender terms basis⟩
      basis.id info.sender terms.payeeAddress :=
  ⟨info, terms, r, rfl, rfl, rfl, rfl, Finmap.lookup_eq_none.mpr hfree, _, Finmap.lookup_insert _⟩

/-- Every `CreateInvoice` of a run that returns raises an invoice. -/
theorem raises_of_reply (hr : Run (rwa env) h s) {e : CallEvent} (he : e ∈ h) {info : MessageInfo}
    {terms : InvoiceTerms} {r : Reply} (hc : e.call = .execute info (.createInvoice terms)) (hok : e.reply = .ok r) :
    ∃ k, e.Raises k info.sender terms.payeeAddress := by
  have hopens : e.call.opens = false := by
    rw [hc]
    rfl
  obtain ⟨_, hb⟩ := rwa_reaches_before hr he hopens
  have heff := effect_of_reply hr he hok
  obtain ⟨before, call, reply, after⟩ := e
  change call = _ at hc
  change reply = _ at hok
  change Effect env before call r after at heff
  subst hc hok
  cases heff with
  | @createInvoice _ _ basis hready => exact ⟨basis.id, raises_invoiced (next_id_fresh hb basis.id hready.id)⟩

/-- Every stored invoice was raised by an event of the run. -/
private theorem raised_at (hr : Run (rwa env) h s) : ∀ k invoice, s.invoice.lookup k = some invoice →
    ∃ (n : Nat) (e : CallEvent), h[n]? = some e ∧ e.Raises k invoice.from invoice.payeeAddress := by
  refine rwa_rule (I := fun h s => ∀ k invoice, s.invoice.lookup k = some invoice →
    ∃ (n : Nat) (e : CallEvent), h[n]? = some e ∧ e.Raises k invoice.from invoice.payeeAddress) ?_ ?_ ?_ hr
  · intro info k invoice hk
    cases hk
  · intro h s c r s' hr ih _ he k invoice hk
    have hold (n : Nat) (e x : CallEvent) (hn : h[n]? = some e) : (h ++ [x])[n]? = some e := by
      rw [List.getElem?_append_left (List.getElem?_eq_some_iff.mp hn).1]
      exact hn
    rcases he.invoiceMove.origin hk with hk | ⟨info, terms, b, hready, rfl, rfl, rfl⟩ | ⟨old, hw⟩
    · obtain ⟨n, e, hn, hraises⟩ := ih k invoice hk
      exact ⟨n, e, hold n e _ hn, hraises⟩
    · have hnew : s.invoice.lookup b.id = none := Finmap.lookup_eq_none.mpr (next_id_fresh hr b.id hready.id)
      exact ⟨h.length, _, List.getElem?_concat_length, info, terms, r, rfl, rfl, rfl, rfl, hnew, _, hk⟩
    · obtain ⟨n, e, hn, hraises⟩ := ih k old hw.stored
      rw [hw.sameTerms.creditor, hw.sameTerms.payeeAddress]
      exact ⟨n, e, hold n e _ hn, hraises⟩
  · intro h s c e _ ih _ _ k invoice hk
    obtain ⟨n, x, hn, hraises⟩ := ih k invoice hk
    refine ⟨n, x, ?_, hraises⟩
    rw [List.getElem?_append_left (List.getElem?_eq_some_iff.mp hn).1]
    exact hn

/-- Whoever raises an invoice does it on a contact. -/
private theorem contact_of_raises (hr : Run (rwa env) h s) {n : Nat} {e : CallEvent} {k : U64}
    (hn : h[n]? = some e) (hraises : e.Raises k a b) :
    Run (rwa env) (h.take n) e.before ∧ b ∈ e.before.contacts a := by
  obtain ⟨info, terms, r, hc, hok, rfl, rfl, _⟩ := hraises
  have he := effect_of_reply hr (List.mem_of_getElem? hn) hok
  rw [hc] at he
  generalize e.after = s' at he
  have hopen : ¬ (rwa env).opens e.call := by
    rw [hc]
    exact Bool.false_ne_true
  refine ⟨hr.upToBefore hn hopen, ?_⟩
  cases he with
  | createInvoice hready =>
    change _ ∈ listed _ _ _
    rw [listed_of_lookup _ hready.creator]
    exact hready.contact

end Traces

section Laws
variable {env : Env} {h : History} {s : Storage}

private theorem consented (hr : Run (rwa env) h s) {k : U64} {invoice : Invoice}
    (hk : s.invoice.lookup k = some invoice) :
    ∃ j i n, Consented h k invoice.from invoice.payeeAddress j i n := by
  obtain ⟨n, e, hn, hraises⟩ := raised_at hr k invoice hk
  obtain ⟨hb, hcontact⟩ := contact_of_raises hr hn hraises
  obtain ⟨j, i, hji, hagreed⟩ := contact_agreed hb hcontact
  have htake : History.handshakes (h.take n) = h.handshakes.take n := List.map_take
  -- positions below `n` are the same in the history and in what came before the invoice
  have hpos {x : Nat} {m : Handshake.Move Addr} (hx : (History.handshakes (h.take n))[x]? = some m) :
      x < n ∧ h.handshakes[x]? = some m := by
    rw [htake, List.getElem?_take] at hx
    split at hx
    · exact ⟨‹_›, hx⟩
    · cases hx
  have hlast (m : Handshake.Move Addr) (hi : h.handshakes[i]? = some m) (hm : m.links invoice.from invoice.payeeAddress)
      (x : Nat) (e : CallEvent) (hix : i ≤ x) (hx : h[x]? = some e) :
      invoice.payeeAddress ∈ e.after.contacts invoice.from ∧ invoice.from ∈ e.after.contacts invoice.payeeAddress := by
    refine contacts_of_grant (hr.upTo hx) (i := i) (m := m) ?_ hm
    rw [show History.handshakes (h.take (x + 1)) = h.handshakes.take (x + 1) from List.map_take,
      List.getElem?_take_of_lt (Nat.lt_succ_of_le hix)]
    exact hi
  rcases hagreed with ⟨hj, hi⟩ | ⟨hj, hi⟩
  · obtain ⟨hin, hi⟩ := hpos hi
    exact ⟨j, i, n, ⟨hji, hin⟩, .inl ⟨(hpos hj).2, hi⟩, ⟨e, hn, hraises⟩, hlast _ hi (.inl rfl)⟩
  · obtain ⟨hin, hi⟩ := hpos hi
    exact ⟨j, i, n, ⟨hji, hin⟩, .inr ⟨(hpos hj).2, hi⟩, ⟨e, hn, hraises⟩, hlast _ hi (.inr rfl)⟩

/-- The contacts of a state against the requests and acceptances that have led to it. -/
structure ConsentLedger (h : History) (s : Storage) : Prop where
  counted : ∀ a b, (s.contacts a).count b = h.countP fun e => e.handshake.links a b
  answered : ∃ f, Handshake.Answers h.handshakes f
  consented : ∀ k invoice, s.invoice.lookup k = some invoice →
    ∃ j i n, Consented h k invoice.from invoice.payeeAddress j i n

/-- Nobody is invoiced without having agreed to the contact, in any run. -/
theorem consent_before_invoicing (hr : Run (rwa env) h s) : ConsentLedger h s := by
  refine ⟨fun a b => ?_, (traces hr).answers, fun k invoice hk => consented hr hk⟩
  have hl := (traces hr).linked_eq a b
  rw [History.handshakes, List.countP_map] at hl
  exact hl

end Laws

theorem consent_before_invoicing_of_invoiced :
    ConsentLedger (Sample.history Sample.invoiced) (Sample.storage Sample.invoiced) ∧
    Sample.invoiceId ∈ (Sample.storage Sample.invoiced).invoice :=
  ⟨consent_before_invoicing (Sample.run Sample.invoiced (by decide)), by decide⟩

end ComdexRwa.Core
