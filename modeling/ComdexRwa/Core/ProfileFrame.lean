import ComdexRwa.Core.ContactBook
import ComdexRwa.Core.InvoiceBook

/-! What one message can do to the profiles: its sender's own, and at most one other.
Every handler that writes two profiles writes two different ones, so neither save undoes the other. -/
namespace ComdexRwa.Core
open Foundation

/-- What two records of one profile share for good. -/
structure ContactInfo.SameIdentity (new old : ContactInfo) : Prop where
  name : new.name = old.name
  companyName : new.companyName = old.companyName
  address : new.address = old.address
  phoneNumber : new.phoneNumber = old.phoneNumber
  owner : new.owner = old.owner
  emailId : new.emailId = old.emailId
  kycStatus : new.kycStatus = old.kycStatus

private theorem ContactInfo.SameIdentity.refl (c : ContactInfo) : c.SameIdentity c :=
  ⟨rfl, rfl, rfl, rfl, rfl, rfl, rfl⟩

/-- What a message of `sender` can enter in the profile `p` that is stored under `a`. -/
inductive Entered (s s' : Storage) (sender a : Addr) (p : ContactInfo) : ContactInfo → Prop where
  | request : Entered s s' sender a p { p with receivedRequests := p.receivedRequests ++ [sender] }
  | contact : sender ∈ p.sentRequests → Entered s s' sender a p
      { p with
        sentRequests := p.sentRequests.erase sender
        contacts := p.contacts ++ [sender] }
  | invoice {id : U64} {invoice : Invoice} : s.invoice.lookup id = none → s'.invoice.lookup id = some invoice →
      invoice.from = sender → invoice.payeeAddress = a →
      Entered s s' sender a p { p with assignedInvoices := p.assignedInvoices ++ [id] }

private theorem Entered.sameIdentity {s s' : Storage} {sender a : Addr} {p p' : ContactInfo}
    (h : Entered s s' sender a p p') : p'.SameIdentity p := by
  cases h with
  | request => exact ⟨rfl, rfl, rfl, rfl, rfl, rfl, rfl⟩
  | contact _ => exact ⟨rfl, rfl, rfl, rfl, rfl, rfl, rfl⟩
  | invoice _ _ _ _ => exact ⟨rfl, rfl, rfl, rfl, rfl, rfl, rfl⟩

/-- The profiles after a message against the profiles before it. -/
structure ProfileFrame (s s' : Storage) (sender : Addr) : Prop where
  kept : ∀ a p, s.contactInfo.lookup a = some p → ∃ p', s'.contactInfo.lookup a = some p' ∧ p'.SameIdentity p
  others : ∀ a p p', a ≠ sender → s.contactInfo.lookup a = some p → s'.contactInfo.lookup a = some p' →
    p' = p ∨ Entered s s' sender a p p'
  single : ∀ a b, a ≠ sender → b ≠ sender → s'.contactInfo.lookup a ≠ s.contactInfo.lookup a →
    s'.contactInfo.lookup b ≠ s.contactInfo.lookup b → a = b
  created : ∀ a, s.contactInfo.lookup a = none → s'.contactInfo.lookup a ≠ none → a = sender

section Saves
variable {s s' : Storage} {sender a : Addr} {c c' d d' : ContactInfo}

private theorem ProfileFrame.same (h : s'.contactInfo = s.contactInfo) : ProfileFrame s s' sender := by
  constructor
  · intro a p hp
    rw [h]
    exact ⟨p, hp, .refl p⟩
  · intro a p p' _ hp hp'
    rw [h, hp] at hp'
    cases hp'
    exact .inl rfl
  · intro a b _ _ ha
    rw [h] at ha
    exact (ha rfl).elim
  · intro a hn hs
    rw [h] at hs
    exact (hs hn).elim

/-- Saving one profile that did not exist. -/
private theorem ProfileFrame.fresh (hn : s.contactInfo.lookup sender = none)
    (h : s'.contactInfo = s.contactInfo.insert sender c) : ProfileFrame s s' sender := by
  have hother (x : Addr) (hx : x ≠ sender) : s'.contactInfo.lookup x = s.contactInfo.lookup x := by
    rw [h]
    exact Finmap.lookup_insert_of_ne _ hx
  constructor
  · intro x p hp
    have hx : x ≠ sender := by
      rintro rfl
      cases hn.symm.trans hp
    exact ⟨p, (hother x hx).trans hp, .refl p⟩
  · intro x p p' hx hp hp'
    rw [hother x hx, hp] at hp'
    cases hp'
    exact .inl rfl
  · intro x y hx _ hchange
    exact (hchange (hother x hx)).elim
  · intro x hnone hsome
    by_contra hx
    exact hsome ((hother x hx).trans hnone)

/-- Saving the sender's own profile and then another one, each read as it was stored. -/
private theorem ProfileFrame.pair (hne : a ≠ sender) (hc : s.contactInfo.lookup sender = some c)
    (hd : s.contactInfo.lookup a = some d)
    (h : s'.contactInfo = (s.contactInfo.insert sender c').insert a d')
    (hown : c'.SameIdentity c) (hent : Entered s s' sender a d d') : ProfileFrame s s' sender := by
  have hself : s'.contactInfo.lookup sender = some c' := by
    rw [h, Finmap.lookup_insert_of_ne _ hne.symm]
    exact Finmap.lookup_insert _
  have hthat : s'.contactInfo.lookup a = some d' := by
    rw [h]
    exact Finmap.lookup_insert _
  have hother (x : Addr) (hx : x ≠ sender) (hxa : x ≠ a) :
      s'.contactInfo.lookup x = s.contactInfo.lookup x := by
    rw [h, Finmap.lookup_insert_of_ne _ hxa]
    exact Finmap.lookup_insert_of_ne _ hx
  constructor
  · intro x p hp
    by_cases hxa : x = a
    · subst hxa
      cases hd.symm.trans hp
      exact ⟨d', hthat, hent.sameIdentity⟩
    · by_cases hx : x = sender
      · subst hx
        cases hc.symm.trans hp
        exact ⟨c', hself, hown⟩
      · exact ⟨p, (hother x hx hxa).trans hp, .refl p⟩
  · intro x p p' hx hp hp'
    by_cases hxa : x = a
    · subst hxa
      cases hd.symm.trans hp
      cases hthat.symm.trans hp'
      exact .inr hent
    · rw [hother x hx hxa, hp] at hp'
      cases hp'
      exact .inl rfl
  · intro x y hx hy hcx hcy
    have hxa : x = a := by
      by_contra hxa
      exact hcx (hother x hx hxa)
    have hya : y = a := by
      by_contra hya
      exact hcy (hother y hy hya)
    rw [hxa, hya]
  · intro x hnone hsome
    by_contra hx
    by_cases hxa : x = a
    · subst hxa
      cases hd.symm.trans hnone
    · exact hsome ((hother x hx hxa).trans hnone)

end Saves

/-- Every profile is stored under the address of its owner. -/
private def Owned (m : Finmap (fun _ : Addr => ContactInfo)) : Prop := ∀ a p, m.lookup a = some p → p.owner = a

/-- Saving a profile with the owner that it had keeps this. -/
private theorem Owned.save {m : Finmap (fun _ : Addr => ContactInfo)} (ho : Owned m) {a : Addr} {p q : ContactInfo}
    (hq : m.lookup a = some q) (hp : p.owner = q.owner) : Owned (m.insert a p) := by
  have hself : p.owner = a := hp.trans (ho a q hq)
  exact forall_lookup_insert.mpr ⟨hself, fun x c _ hc => ho x c hc⟩

section Laws
variable {env : Env} {h : History} {s s' : Storage}

private theorem Effect.owned {c : Call} {r : Reply} (ho : Owned s.contactInfo) (he : Effect env s c r s') :
    Owned s'.contactInfo := by
  cases he with
  | instantiate => exact ho
  | createRequest hready =>
    refine Owned.save (ho.save hready.sender ?_) (hready.recipient_saved _) rfl
    rfl
  | acceptRequest hready =>
    refine Owned.save (ho.save hready.sender ?_) hready.requester rfl
    rfl
  | createProfile _ _ => exact forall_lookup_insert.mpr ⟨rfl, fun x c _ hc => ho x c hc⟩
  | createInvoice hready =>
    refine Owned.save (ho.save hready.creator ?_) (hready.counterparty_saved _) rfl
    rfl
  | setConfig => exact ho
  | acceptInvoice _ => exact ho
  | payInvoice _ => exact ho
  | migrate _ _ _ => exact ho

theorem owned (hr : Run (rwa env) h s) : Owned s.contactInfo := by
  refine rwa_invariant (I := fun s => Owned s.contactInfo) ?_ ?_ hr
  · intro a p hp
    cases hp
  · intro s c r s' ho _ he
    exact he.owned ho

/-- Every message stays within the frame of its sender. -/
private theorem Effect.profileFrame {info : MessageInfo} {msg : ExecuteMsg} {r : Reply} (hn : s.notebooks.Reciprocal)
    (hfresh : ∀ id : U64, id.val = (s.invoiceId.getD 0).val + 1 → id ∉ s.invoice)
    (he : Effect env s (.execute info msg) r s') : ProfileFrame s s' info.sender := by
  cases he with
  | createRequest hready =>
    exact .pair hready.distinct.symm hready.sender hready.recipient rfl ⟨rfl, rfl, rfl, rfl, rfl, rfl, rfl⟩ .request
  | @acceptRequest _ address c d hready =>
    have hne := hready.ne hn
    have hent : Entered s (s.befriended info.sender address c d) info.sender address d _ := .contact hready.sent
    exact .pair hne hready.sender (hready.requester_of_ne hne) rfl ⟨rfl, rfl, rfl, rfl, rfl, rfl, rfl⟩ hent
  | createProfile _ hnone => exact .fresh hnone rfl
  | @createInvoice _ terms b hready =>
    have hnew : s.invoice.lookup b.id = none := Finmap.lookup_eq_none.mpr (hfresh b.id hready.id)
    have hent : Entered s (s.invoiced info.sender terms b) info.sender terms.payeeAddress b.counterparty _ :=
      .invoice hnew (Finmap.lookup_insert _) rfl rfl
    exact .pair hready.distinct.symm hready.creator hready.counterparty rfl ⟨rfl, rfl, rfl, rfl, rfl, rfl, rfl⟩ hent
  | setConfig => exact .same rfl
  | acceptInvoice _ => exact .same rfl
  | payInvoice _ => exact .same rfl

/-- What a message that returns can do to the profiles, whoever sends it. -/
structure SenderFrame (s s' : Storage) (sender : Addr) (msg : ExecuteMsg) : Prop where
  frame : ProfileFrame s s' sender
  owned : ∀ a p, s.contactInfo.lookup a = some p → p.owner = a
  ownedAfter : ∀ a p', s'.contactInfo.lookup a = some p' → p'.owner = a
  opened : ∀ name emailId phoneNumber companyName address,
    msg = .createProfile name emailId phoneNumber companyName address → s.contactInfo.lookup sender = none

/-- In every state reached, a message from anyone stays within the frame of its sender. -/
theorem sender_frame (hr : Run (rwa env) h s) (info : MessageInfo) (msg : ExecuteMsg) (r : Reply) (s' : Storage)
    (hx : (Core.execute env info msg).Returns s r s') : SenderFrame s s' info.sender msg := by
  have he : Effect env s (.execute info msg) r s' := (dispatch_returns env (.execute info msg) s r s').mp hx
  refine ⟨he.profileFrame (notebooks_reciprocal hr) (next_id_fresh hr), owned hr, he.owned (owned hr), ?_⟩
  rintro _ _ _ _ _ rfl
  cases he with
  | createProfile _ hnone => exact hnone

end Laws

theorem sender_frame_of_request : ∃ r s', SenderFrame (Sample.storage Sample.profiles) s' Sample.alice
    (.createRequest Sample.bob) ∧ (Core.execute Sample.env ⟨Sample.alice, []⟩ (.createRequest Sample.bob)).Returns
      (Sample.storage Sample.profiles) r s' := by
  have hx : (Core.execute Sample.env ⟨Sample.alice, []⟩ (.createRequest Sample.bob)).Returns
      (Sample.storage Sample.profiles) (requestReply Sample.alice Sample.bob) _ := rfl
  exact ⟨_, _, sender_frame (Sample.run Sample.profiles (by decide)) _ _ _ _ hx, hx⟩

end ComdexRwa.Core
