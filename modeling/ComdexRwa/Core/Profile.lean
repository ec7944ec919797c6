import ComdexRwa.Core.State
import Mathlib.Data.List.Basic

/-! Profiles and the contact handshake: opening a profile, asking for a contact, accepting one.
Each handler is followed by what it takes for it to return, and what it then leaves. -/
namespace ComdexRwa.Core
open Foundation Txn

def createRequest (info : MessageInfo) (address : Addr) : Contract Reply := do
  ensure (info.sender ≠ address) .unauthorized
  let contactInfo ← okOr (.generic "Profile does not exist") (← contactInfoMap.mayLoad info.sender)
  ensure (address ∉ contactInfo.sentRequests) (.generic "Already sent request")
  -- The second guard reads the same list as the first, not `contacts`.
  ensure (address ∉ contactInfo.sentRequests) (.generic "Already in contact")
  contactInfoMap.save info.sender
    { contactInfo with sentRequests := contactInfo.sentRequests ++ [address] }
  let requestedContactInfo ← okOr (.generic "Recipient Profile does not exist")
    (← contactInfoMap.mayLoad address)
  contactInfoMap.save address
    { requestedContactInfo with receivedRequests := requestedContactInfo.receivedRequests ++ [info.sender] }
  pure (Response.new
    |>.addAttribute "method" "create_request"
    |>.addAttribute "sender" info.sender.text
    |>.addAttribute "receiver" address.text)

/-- The search loop: whether the address was met, and the index at which the loop stopped. -/
def search (address : Addr) : List Addr → Nat → Bool × Nat
  | [], index => (false, index)
  | contact :: rest, index => if contact = address then (true, index) else search address rest (index + 1)

/-- Removal by index, which panics past the end. -/
def remove (contacts : List Addr) (index : Nat) : Contract (List Addr) :=
  expect (if index < contacts.length then some (contacts.eraseIdx index) else none)

def acceptRequest (info : MessageInfo) (address : Addr) : Contract Reply := do
  ensure (info.funds = []) (.generic "Funds not accepted")
  let contactInfo ← okOr (.generic "Profile does not exist") (← contactInfoMap.mayLoad info.sender)
  let (requestExist, index) := search address contactInfo.receivedRequests 0
  ensure (requestExist = true) (.generic "No request found")
  let receivedRequests ← remove contactInfo.receivedRequests index
  contactInfoMap.save info.sender
    { contactInfo with receivedRequests, contacts := contactInfo.contacts ++ [address] }
  let requestedContactInfo ← okOr (.generic "Requestor Profile does not exist")
    (← contactInfoMap.mayLoad address)
  -- No flag is kept here: a sender that is not listed makes the removal panic.
  let (_, index) := search info.sender requestedContactInfo.sentRequests 0
  let sentRequests ← remove requestedContactInfo.sentRequests index
  contactInfoMap.save address
    { requestedContactInfo with sentRequests, contacts := requestedContactInfo.contacts ++ [info.sender] }
  pure (Response.new
    |>.addAttribute "method" "accept_request"
    |>.addAttribute "receiver" info.sender.text)

def createProfile (info : MessageInfo) (name emailId phoneNumber companyName address : String) :
    Contract Reply := do
  ensure (info.funds = []) (.generic "Funds not accepted")
  let contactInfo ← contactInfoMap.mayLoad info.sender
  ensure (contactInfo = none) (.generic "Profile already exist")
  contactInfoMap.save info.sender
    { name, companyName, address, phoneNumber, owner := info.sender, emailId
      sentRequests := [], receivedRequests := [], contacts := [], kycStatus := .approved
      assignedInvoices := [], generatedInvoices := [] }
  pure (Response.new
    |>.addAttribute "method" "create_profile"
    |>.addAttribute "sender" info.sender.text)

theorem search_eq (address : Addr) (contacts : List Addr) (index : Nat) :
    search address contacts index = (decide (address ∈ contacts), index + contacts.idxOf address) := by
  induction contacts generalizing index with
  | nil => simp [search]
  | cons contact rest ih =>
    by_cases hc : contact = address
    · simp [search, hc]
    · have hne : address ≠ contact := fun h => hc h.symm
      simp [search, hc, ih, List.idxOf_cons_ne _ hc, hne]
      omega

/-- Removing at the index the search stopped at drops the first occurrence, if there is one. -/
private theorem remove_bind {β : Type} (contacts : List Addr) (a : Addr) (f : List Addr → Contract β) (s : Storage)
    (b : β) (s' : Storage) :
    Returns (remove contacts (contacts.idxOf a) >>= f) s b s' ↔
      a ∈ contacts ∧ (f (contacts.erase a)).Returns s b s' := by
  simp only [remove, returns_expect_bind, List.idxOf_lt_length_iff, List.erase_eq_eraseIdx_of_idxOf rfl]
  by_cases ha : a ∈ contacts <;> simp [ha]

/-- What `createRequest` finds before it writes: two profiles and no open request between them. -/
structure RequestReady (s : Storage) (info : MessageInfo) (address : Addr)
    (contactInfo requestedContactInfo : ContactInfo) : Prop where
  distinct : info.sender ≠ address
  sender : s.contactInfo.lookup info.sender = some contactInfo
  unsent : address ∉ contactInfo.sentRequests
  recipient : s.contactInfo.lookup address = some requestedContactInfo

/-- Saving the sender's profile first leaves the other one as it was. -/
theorem RequestReady.recipient_saved {s : Storage} {info : MessageInfo} {address : Addr} {c d : ContactInfo}
    (hready : RequestReady s info address c d) (saved : ContactInfo) :
    (s.contactInfo.insert info.sender saved).lookup address = some d := by
  rw [Finmap.lookup_insert_of_ne _ (Ne.symm hready.distinct)]
  exact hready.recipient

/-- The storage with a request entered on both sides. -/
def Storage.requested (s : Storage) (sender address : Addr)
    (contactInfo requestedContactInfo : ContactInfo) : Storage :=
  { s with
    contactInfo := (s.contactInfo.insert sender
        { contactInfo with sentRequests := contactInfo.sentRequests ++ [address] }).insert address
        { requestedContactInfo with receivedRequests := requestedContactInfo.receivedRequests ++ [sender] } }

def requestReply (sender address : Addr) : Reply :=
  Response.new
    |>.addAttribute "method" "create_request"
    |>.addAttribute "sender" sender.text
    |>.addAttribute "receiver" address.text

theorem createRequest_returns (info : MessageInfo) (address : Addr) (s : Storage) (r : Reply) (s' : Storage) :
    (createRequest info address).Returns s r s' ↔ r = requestReply info.sender address ∧
      ∃ c d, RequestReady s info address c d ∧ s' = s.requested info.sender address c d := by
  simp only [createRequest, returns_ensure_bind, Table.returns_mayLoad_bind, returns_okOr_bind,
    Table.returns_save_bind, returns_pure, contactInfoMap_read, contactInfoMap_write]
  constructor
  · intro hx
    obtain ⟨hne, c, hc, hu, _, d, hd, rfl, rfl⟩ := hx
    rw [Finmap.lookup_insert_of_ne _ (Ne.symm hne)] at hd
    exact ⟨rfl, c, d, ⟨hne, hc, hu, hd⟩, rfl⟩
  · intro hx
    obtain ⟨rfl, c, d, hready, rfl⟩ := hx
    exact ⟨hready.distinct, c, hready.sender, hready.unsent, hready.unsent, d, hready.recipient_saved _, rfl, rfl⟩

/-- What `acceptRequest` finds before it writes. The requester's profile is read after the
sender's has been saved, so the two could be one record. -/
structure AcceptReady (s : Storage) (info : MessageInfo) (address : Addr)
    (contactInfo requestedContactInfo : ContactInfo) : Prop where
  noFunds : info.funds = []
  sender : s.contactInfo.lookup info.sender = some contactInfo
  received : address ∈ contactInfo.receivedRequests
  requester : (s.contactInfo.insert info.sender
    { contactInfo with
      receivedRequests := contactInfo.receivedRequests.erase address
      contacts := contactInfo.contacts ++ [address] }).lookup address = some requestedContactInfo
  sent : info.sender ∈ requestedContactInfo.sentRequests

/-- The storage with a request turned into a contact on both sides. -/
def Storage.befriended (s : Storage) (sender address : Addr)
    (contactInfo requestedContactInfo : ContactInfo) : Storage :=
  { s with
    contactInfo := (s.contactInfo.insert sender
        { contactInfo with
          receivedRequests := contactInfo.receivedRequests.erase address
          contacts := contactInfo.contacts ++ [address] }).insert address
        { requestedContactInfo with
          sentRequests := requestedContactInfo.sentRequests.erase sender
          contacts := requestedContactInfo.contacts ++ [sender] } }

def acceptRequestReply (sender : Addr) : Reply :=
  Response.new
    |>.addAttribute "method" "accept_request"
    |>.addAttribute "receiver" sender.text

theorem acceptRequest_returns (info : MessageInfo) (address : Addr) (s : Storage) (r : Reply) (s' : Storage) :
    (acceptRequest info address).Returns s r s' ↔ r = acceptRequestReply info.sender ∧
      ∃ c d, AcceptReady s info address c d ∧ s' = s.befriended info.sender address c d := by
  simp only [acceptRequest, search_eq, Nat.zero_add, returns_ensure_bind, Table.returns_mayLoad_bind,
    returns_okOr_bind, remove_bind, Table.returns_save_bind, returns_pure, contactInfoMap_read,
    contactInfoMap_write, decide_eq_true_eq]
  constructor
  · intro hx
    obtain ⟨hf, c, hc, hm, _, d, hd, hs, rfl, rfl⟩ := hx
    exact ⟨rfl, c, d, ⟨hf, hc, hm, hd, hs⟩, rfl⟩
  · intro hx
    obtain ⟨rfl, c, d, ⟨hf, hc, hm, hd, hs⟩, rfl⟩ := hx
    exact ⟨hf, c, hc, hm, hm, d, hd, hs, rfl, rfl⟩

/-- The profile every account starts with. -/
def ContactInfo.fresh (owner : Addr) (name emailId phoneNumber companyName address : String) : ContactInfo :=
  { name, companyName, address, phoneNumber, owner, emailId
    sentRequests := [], receivedRequests := [], contacts := [], kycStatus := .approved
    assignedInvoices := [], generatedInvoices := [] }

def Storage.opened (s : Storage) (sender : Addr) (contactInfo : ContactInfo) : Storage :=
  { s with contactInfo := s.contactInfo.insert sender contactInfo }

def profileReply (sender : Addr) : Reply :=
  Response.new
    |>.addAttribute "method" "create_profile"
    |>.addAttribute "sender" sender.text

theorem createProfile_returns (info : MessageInfo) (name emailId phoneNumber companyName address : String)
    (s : Storage) (r : Reply) (s' : Storage) :
    (createProfile info name emailId phoneNumber companyName address).Returns s r s' ↔
      r = profileReply info.sender ∧ info.funds = [] ∧ s.contactInfo.lookup info.sender = none ∧
      s' = s.opened info.sender (.fresh info.sender name emailId phoneNumber companyName address) := by
  simp only [createProfile, returns_ensure_bind, Table.returns_mayLoad_bind, Table.returns_save_bind,
    returns_pure]
  simp only [contactInfoMap_read, contactInfoMap_write]
  constructor
  · intro hx
    obtain ⟨hf, hn, rfl, rfl⟩ := hx
    exact ⟨rfl, hf, hn, rfl⟩
  · intro hx
    obtain ⟨rfl, hf, hn, rfl⟩ := hx
    exact ⟨hf, hn, rfl, rfl⟩

section Views
variable {β : Type} (f : ContactInfo → List β) (m : Finmap (fun _ : Addr => ContactInfo))

/-- One list of every account, empty for an account without a profile. -/
def listed (a : Addr) : List β := ((m.lookup a).map f).getD []

variable {m} in
theorem listed_of_lookup {a : Addr} {c : ContactInfo} (h : m.lookup a = some c) : listed f m a = f c := by
  simp [listed, h]

variable {f m} in
/-- Only an account with a profile has anything in its lists. -/
theorem lookup_of_mem_listed {a : Addr} {b : β} (h : b ∈ listed f m a) : ∃ c, m.lookup a = some c := by
  cases hc : m.lookup a with
  | none => simp [listed, hc] at h
  | some c => exact ⟨c, rfl⟩

theorem listed_insert (a : Addr) (c : ContactInfo) :
    listed f (m.insert a c) = Function.update (listed f m) a (f c) := by
  funext x
  by_cases hx : x = a
  · subst hx
    simp [listed]
  · simp [listed, hx, Finmap.lookup_insert_of_ne _ hx]

variable {f m} in
/-- A list that the save of a profile leaves as it was stays as it was for everyone. -/
theorem listed_insert_same {a : Addr} {c e : ContactInfo} (hc : m.lookup a = some c) (he : f e = f c) :
    listed f (m.insert a e) = listed f m := by
  rw [listed_insert, he, ← listed_of_lookup f hc, Function.update_eq_self]

variable {f m} in
/-- A new profile with an empty list changes that list for nobody. -/
theorem listed_insert_fresh {a : Addr} {c : ContactInfo} (hn : m.lookup a = none) (hf : f c = []) :
    listed f (m.insert a c) = listed f m := by
  have he : f c = listed f m a := by
    rw [hf, listed, hn]
    rfl
  rw [listed_insert, he, Function.update_eq_self]

variable {f m} in
theorem listed_insert_insert_same {a b : Addr} {c d e e' : ContactInfo} (hc : m.lookup a = some c)
    (he : f e = f c) (hd : (m.insert a e).lookup b = some d) (he' : f e' = f d) :
    listed f ((m.insert a e).insert b e') = listed f m := by
  rw [listed_insert_same hd he', listed_insert_same hc he]

end Views
end ComdexRwa.Core
