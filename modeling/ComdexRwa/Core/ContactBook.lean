import ComdexRwa.Core.Runs
import ComdexRwa.Foundation.Handshake

/-! The three contact lists of all profiles as one handshake kept by both parties.
Requests and acceptances are its two moves; every other call leaves it alone. -/
namespace ComdexRwa.Core
open Foundation

namespace Storage

def sentRequests (s : Storage) : Addr → List Addr := listed ContactInfo.sentRequests s.contactInfo
def receivedRequests (s : Storage) : Addr → List Addr := listed ContactInfo.receivedRequests s.contactInfo
def contacts (s : Storage) : Addr → List Addr := listed ContactInfo.contacts s.contactInfo

def notebooks (s : Storage) : Notebooks Addr := ⟨s.sentRequests, s.receivedRequests, s.contacts⟩

end Storage

section Moves
variable {env : Env} {s s' : Storage} {info : MessageInfo} {address : Addr} {c d : ContactInfo}

theorem notebooks_requested (hready : RequestReady s info address c d) :
    (s.requested info.sender address c d).notebooks = s.notebooks.ask info.sender address := by
  have hd := hready.recipient_saved { c with sentRequests := c.sentRequests ++ [address] }
  apply Notebooks.ext
  · change listed _ (Finmap.insert _ _ _) = Function.update (listed _ _) _ _
    rw [listed_insert_same hd, listed_insert]
    · exact congrArg _ (congrArg (· ++ [address]) (listed_of_lookup _ hready.sender).symm)
    · rfl
  · change listed _ (Finmap.insert _ _ _) = Function.update (listed _ _) _ _
    rw [listed_insert, listed_insert_same hready.sender]
    · exact congrArg _ (congrArg (· ++ [info.sender]) (listed_of_lookup _ hready.recipient).symm)
    · rfl
  · exact listed_insert_insert_same hready.sender rfl hd rfl

/-- With two parties, the acceptance reads the requester's profile as it was. -/
theorem AcceptReady.requester_of_ne (hready : AcceptReady s info address c d) (hne : address ≠ info.sender) :
    s.contactInfo.lookup address = some d := by
  have hd := hready.requester
  rwa [Finmap.lookup_insert_of_ne _ hne] at hd

theorem notebooks_befriended (hready : AcceptReady s info address c d) (hne : address ≠ info.sender) :
    (s.befriended info.sender address c d).notebooks = s.notebooks.grant address info.sender := by
  have hd := hready.requester_of_ne hne
  apply Notebooks.ext
  · change listed _ (Finmap.insert _ _ _) = Function.update (listed _ _) _ _
    rw [listed_insert, listed_insert_same hready.sender]
    · exact congrArg _ (congrArg (·.erase info.sender) (listed_of_lookup _ hd).symm)
    · rfl
  · change listed _ (Finmap.insert _ _ _) = Function.update (listed _ _) _ _
    rw [listed_insert_same hready.requester, listed_insert]
    · exact congrArg _ (congrArg (·.erase address) (listed_of_lookup _ hready.sender).symm)
    · rfl
  · change listed _ (Finmap.insert _ _ _) = Function.update (Function.update (listed _ _) _ _) _ _
    rw [listed_insert, listed_insert]
    congr 2
    · exact congrArg (· ++ [address]) (listed_of_lookup _ hready.sender).symm
    · exact congrArg (· ++ [info.sender]) (listed_of_lookup _ hd).symm

theorem notebooks_opened {profile : ContactInfo} (hn : s.contactInfo.lookup info.sender = none)
    (hs : profile.sentRequests = []) (hr : profile.receivedRequests = []) (hk : profile.contacts = []) :
    (s.opened info.sender profile).notebooks = s.notebooks :=
  Notebooks.ext (listed_insert_fresh hn hs) (listed_insert_fresh hn hr) (listed_insert_fresh hn hk)

theorem notebooks_invoiced {terms : InvoiceTerms} {b : InvoiceBasis} (hready : InvoiceReady s info terms b) :
    (s.invoiced info.sender terms b).notebooks = s.notebooks := by
  have hq := hready.counterparty_saved { b.creator with generatedInvoices := b.creator.generatedInvoices ++ [b.id] }
  apply Notebooks.ext
  · exact listed_insert_insert_same hready.creator rfl hq rfl
  · exact listed_insert_insert_same hready.creator rfl hq rfl
  · exact listed_insert_insert_same hready.creator rfl hq rfl

end Moves

/-- The two calls that reach into the contact lists. -/
def Call.meets : Call → Bool
  | .execute _ (.createRequest _) => true
  | .execute _ (.acceptRequest _) => true
  | _ => false

/-- The moves a returning call can make on the contact lists. -/
inductive ContactMove (s : Storage) : Call → Notebooks Addr → Prop where
  | keep {c : Call} : c.meets = false → ContactMove s c s.notebooks
  | ask {info : MessageInfo} {address : Addr} {c d : ContactInfo} : RequestReady s info address c d →
      ContactMove s (.execute info (.createRequest address)) (s.notebooks.ask info.sender address)
  | grant {info : MessageInfo} {address : Addr} {c d : ContactInfo} : AcceptReady s info address c d →
      address ≠ info.sender →
      ContactMove s (.execute info (.acceptRequest address)) (s.notebooks.grant address info.sender)

section Laws
variable {env : Env} {h : History} {s s' : Storage} {info : MessageInfo} {address : Addr} {c d : ContactInfo}

theorem RequestReady.unasked (hready : RequestReady s info address c d) :
    address ∉ s.notebooks.sent info.sender := by
  change address ∉ listed _ _ _
  rw [listed_of_lookup _ hready.sender]
  exact hready.unsent

theorem AcceptReady.pending (hready : AcceptReady s info address c d) (hne : address ≠ info.sender) :
    info.sender ∈ s.notebooks.sent address := by
  change info.sender ∈ listed _ _ _
  rw [listed_of_lookup _ (hready.requester_of_ne hne)]
  exact hready.sent

/-- Nobody accepts a request of their own, since none is ever entered. -/
theorem AcceptReady.ne (hready : AcceptReady s info address c d) (hn : s.notebooks.Reciprocal) :
    address ≠ info.sender := by
  apply hn.ne_of_received
  change address ∈ listed _ _ _
  rw [listed_of_lookup _ hready.sender]
  exact hready.received

/-- Every effect is one move of the handshake, or leaves the lists alone. -/
theorem Effect.contactMove {c : Call} {r : Reply} (he : Effect env s c r s') (hn : s.notebooks.Reciprocal) :
    ContactMove s c s'.notebooks := by
  cases he with
  | instantiate info => exact .keep rfl
  | createRequest hready =>
    rw [notebooks_requested hready]
    exact .ask hready
  | acceptRequest hready =>
    rw [notebooks_befriended hready (hready.ne hn)]
    exact .grant hready (hready.ne hn)
  | createProfile _ hnone =>
    rw [notebooks_opened hnone rfl rfl rfl]
    exact .keep rfl
  | createInvoice hready =>
    rw [notebooks_invoiced hready]
    exact .keep rfl
  | setConfig => exact .keep rfl
  | acceptInvoice _ => exact .keep rfl
  | payInvoice _ => exact .keep rfl
  | migrate => exact .keep rfl

private theorem ContactMove.reciprocal {c : Call} {n : Notebooks Addr} (hm : ContactMove s c n)
    (hn : s.notebooks.Reciprocal) : n.Reciprocal := by
  cases hm with
  | keep _ => exact hn
  | ask hready => exact hn.ask hready.distinct hready.unasked
  | grant hready hne => exact hn.grant hne (hready.pending hne)

private theorem start_notebooks : Storage.start.notebooks = Notebooks.blank := rfl

theorem notebooks_reciprocal (hr : Run (rwa env) h s) : s.notebooks.Reciprocal := by
  refine rwa_invariant (I := fun s => s.notebooks.Reciprocal) ?_ ?_ hr
  · rw [start_notebooks]
    exact .blank
  · intro s c r s' hn _ he
    exact (he.contactMove hn).reciprocal hn

/-- Requests and contacts as both parties' profiles show them. -/
structure Storage.RequestLedger (s : Storage) : Prop where
  mirrored : ∀ a b, (s.sentRequests a).count b = (s.receivedRequests b).count a
  single : ∀ a b, (s.sentRequests a).count b ≤ 1
  mutually : ∀ a b, (s.contacts a).count b = (s.contacts b).count a
  alone : ∀ a, a ∉ s.sentRequests a ∧ a ∉ s.receivedRequests a ∧ a ∉ s.contacts a
  known : ∀ a b, b ∈ s.sentRequests a ∨ b ∈ s.receivedRequests a ∨ b ∈ s.contacts a →
    ∃ c, s.contactInfo.lookup b = some c

/-- The request ledger is symmetric in every state reached. -/
theorem request_ledger (hr : Run (rwa env) h s) : s.RequestLedger := by
  have hn := notebooks_reciprocal hr
  refine ⟨hn.agree, hn.proper.single, hn.proper.mutually, hn.alone, ?_⟩
  intro a b hx
  rcases hx with hb | hb | hb
  · exact lookup_of_mem_listed (hn.sent_iff.mp hb)
  · exact lookup_of_mem_listed (hn.sent_iff.mpr hb)
  · exact lookup_of_mem_listed (hn.contacts_iff.mp hb)

theorem request_ledger_of_contacts : (Sample.storage Sample.befriended).RequestLedger ∧
    (Sample.storage Sample.befriended).contacts Sample.alice = [Sample.bob] :=
  ⟨request_ledger (Sample.run Sample.befriended (by decide)), by decide⟩

/-- A call that asks a contact again, or grants a request crossed by one of the sender's own. -/
def crosses (s : Storage) : Call → Prop
  | .execute info (.createRequest address) =>
    (∃ c d, RequestReady s info address c d) ∧ address ∈ s.contacts info.sender
  | .execute info (.acceptRequest address) =>
    (∃ c d, AcceptReady s info address c d) ∧ address ∈ s.sentRequests info.sender
  | _ => False

/-- Contacts form sets in the store left behind, and no request was made between contacts. -/
structure ContactSets (e : CallEvent) : Prop where
  exclusive : e.after.notebooks.Exclusive
  unasked : ∀ info address r, e.call = .execute info (.createRequest address) → e.reply = .ok r →
    address ∉ e.before.contacts info.sender

/-- A call that returns keeps the contacts a set exactly when it does not cross. -/
private theorem contact_sets_iff {c : Call} {r : Reply} (hn : s.notebooks.Reciprocal) (hx : s.notebooks.Exclusive)
    (he : Effect env s c r s') : ContactSets ⟨s, c, .ok r, s'⟩ ↔ ¬ crosses s c := by
  have hm := he.contactMove hn
  generalize hs : s'.notebooks = n at hm
  cases hm with
  | keep hmeets =>
    have hno : ¬ crosses s c := by
      intro hc
      unfold crosses at hc
      split at hc <;> first | exact hc | cases hmeets
    refine ⟨fun _ => hno, fun _ => ⟨hs ▸ hx, ?_⟩⟩
    rintro info address r rfl
    cases hmeets
  | @ask info address c d hready =>
    have hiff := hx.ask_iff hn hready.distinct hready.unasked
    rw [← hs] at hiff
    constructor
    · intro hk hc
      exact hiff.mp hk.exclusive hc.2
    · intro hc
      have hno : address ∉ s.contacts info.sender := fun h => hc ⟨⟨c, d, hready⟩, h⟩
      refine ⟨hiff.mpr hno, ?_⟩
      rintro _ _ _ hcall _
      cases hcall
      exact hno
  | @grant info address c d hready hne =>
    have hiff := hx.grant_iff hn hne (hready.pending hne)
    rw [← hs] at hiff
    constructor
    · intro hk hc
      exact hiff.mp hk.exclusive hc.2
    · intro hc
      refine ⟨hiff.mpr fun h => hc ⟨⟨c, d, hready⟩, h⟩, ?_⟩
      rintro _ _ _ hcall
      cases hcall

/-- A call that crosses is one that returns. -/
private theorem effect_of_crosses {c : Call} (hc : crosses s c) : ∃ r s', Effect env s c r s' := by
  unfold crosses at hc
  split at hc
  · obtain ⟨⟨c, d, hready⟩, _⟩ := hc
    exact ⟨_, _, .createRequest hready⟩
  · obtain ⟨⟨c, d, hready⟩, _⟩ := hc
    exact ⟨_, _, .acceptRequest hready⟩
  · exact hc.elim

/-- Contacts stay sets along a run exactly when no call of the run crosses. -/
theorem contacts_exclusive_iff (hr : Run (rwa env) h s) :
    (∀ e ∈ h, ContactSets e) ↔ ∀ e ∈ h, ¬ crosses e.before e.call := by
  refine rwa_throughout (L := fun s => s.notebooks.Exclusive) (fun e he => he.exclusive) ?_ ?_ ?_ ?_ hr
  · exact fun s c _ hc => effect_of_crosses hc
  · intro info
    exact ⟨fun _ hc => hc, fun _ => ⟨start_notebooks ▸ .blank, fun _ _ _ hcall => (nomatch hcall)⟩⟩
  · intro h s c r s' hr hx he
    exact contact_sets_iff (notebooks_reciprocal hr) hx he
  · intro s c e hx
    exact ⟨hx, fun _ _ _ _ hok => (nomatch hok)⟩

/-- Alice asks Bob a second time once they are contacts, and Bob accepts a second time. -/
def Sample.repeated : List Call :=
  Sample.befriended ++ [Sample.call Sample.alice (.createRequest Sample.bob),
    Sample.call Sample.bob (.acceptRequest Sample.alice)]

theorem contacts_exclusive_iff_of_contacts :
    (∀ e ∈ Sample.history Sample.befriended, ContactSets e) ↔
      ∀ e ∈ Sample.history Sample.befriended, ¬ crosses e.before e.call :=
  contacts_exclusive_iff (Sample.run Sample.befriended (by decide))

/-- After that each of them lists the other twice. -/
theorem contacts_repeat :
    Run (rwa Sample.env) (Sample.history Sample.repeated) (Sample.storage Sample.repeated) ∧
    ¬ ((Sample.storage Sample.repeated).contacts Sample.alice).Nodup :=
  ⟨Sample.run Sample.repeated (by decide), by decide⟩

end Laws
end ComdexRwa.Core
