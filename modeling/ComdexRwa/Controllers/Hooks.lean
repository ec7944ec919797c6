import ComdexRwa.Core.Chain
import ComdexRwa.Foundation.Outcome

/-! An administrator, and the list of hooks that only the administrator changes. -/
namespace ComdexRwa.Controllers
open Foundation Txn
open ComdexRwa.Core (Addr StdError MessageInfo Response)

inductive AdminError where
  | std (e : StdError)
  | notAdmin
  deriving DecidableEq, Repr

inductive HookError where
  | std (e : StdError)
  | admin (e : AdminError)
  | hookAlreadyRegistered
  | hookNotRegistered
  deriving DecidableEq, Repr

/-- An administrator and hooks, which a contract keeps at different keys. The administrator's cell can be empty,
and can hold that there is none. -/
structure ControlStorage where
  admin : Option (Option Addr)
  hooks : Option (List Addr)
  deriving DecidableEq, Repr

structure Admin where
  storageKey : String
  deriving DecidableEq, Repr

structure Hooks where
  storageKey : String
  deriving DecidableEq, Repr

namespace Admin
variable (self : Admin)

def item : Item ControlStorage StdError (Option Addr) :=
  ⟨ControlStorage.admin, fun a s => { s with admin := some a }, .notFound "Option<Addr>" (.item self.storageKey)⟩

def set (admin : Option Addr) : Txn ControlStorage StdError Unit := self.item.save admin

def get : Txn ControlStorage StdError (Option Addr) := self.item.load

def isAdmin (caller : Addr) : Txn ControlStorage StdError Bool := do
  match ← self.item.load with
  | some owner => pure (decide (caller = owner))
  | none => pure false

def assertAdmin (caller : Addr) : Txn ControlStorage AdminError Unit := do
  if ! (← (self.isAdmin caller).mapErr .std) then throw (.error .notAdmin) else pure ()

def executeUpdateAdmin (info : MessageInfo) (newAdmin : Option Addr) :
    Txn ControlStorage AdminError (Response Empty) := do
  self.assertAdmin info.sender
  let adminStr := match newAdmin with
    | some admin => admin.text
    | none => "None"
  (self.set newAdmin).mapErr .std
  pure (((Response.new.addAttribute "action" "update_admin").addAttribute "admin" adminStr).addAttribute
    "sender" info.sender.text)

def queryAdmin : Txn ControlStorage StdError (Option String) := do
  let admin ← self.get
  pure (admin.map Addr.text)

end Admin

namespace Hooks
variable (self : Hooks)

def item : Item ControlStorage StdError (List Addr) :=
  ⟨ControlStorage.hooks, fun hooks s => { s with hooks := some hooks }, .notFound "Vec<Addr>" (.item self.storageKey)⟩

def addHook (addr : Addr) : Txn ControlStorage HookError Unit := do
  let hooks := (← self.item.mayLoad.mapErr .std).getD []
  if ! hooks.any (fun h => h == addr) then
    (self.item.save (hooks ++ [addr])).mapErr .std
  else throw (.error .hookAlreadyRegistered)

def removeHook (addr : Addr) : Txn ControlStorage HookError Unit := do
  let hooks ← self.item.load.mapErr .std
  match hooks.findIdx? (fun x => x == addr) with
  | some p => (self.item.save (hooks.eraseIdx p)).mapErr .std
  | none => throw (.error .hookNotRegistered)

/-- One message a hook, in the order of the hooks; `μ` are submessages. -/
def prepareHooks {μ : Type} (prep : Addr → Txn ControlStorage StdError μ) : Txn ControlStorage StdError (List μ) := do
  let hooks ← self.item.mayLoad
  (hooks.getD []).mapM prep

def executeAddHook (admin : Admin) (info : MessageInfo) (addr : Addr) :
    Txn ControlStorage HookError (Response Empty) := do
  (admin.assertAdmin info.sender).mapErr .admin
  self.addHook addr
  pure (((Response.new.addAttribute "action" "add_hook").addAttribute "hook" addr.text).addAttribute
    "sender" info.sender.text)

def executeRemoveHook (admin : Admin) (info : MessageInfo) (addr : Addr) :
    Txn ControlStorage HookError (Response Empty) := do
  (admin.assertAdmin info.sender).mapErr .admin
  self.removeHook addr
  pure (((Response.new.addAttribute "action" "remove_hook").addAttribute "hook" addr.text).addAttribute
    "sender" info.sender.text)

def queryHooks : Txn ControlStorage StdError (List String) := do
  let hooks := (← self.item.mayLoad).getD []
  pure (hooks.map Addr.text)

def queryHook (hook : String) : Txn ControlStorage StdError Bool := do
  pure ((← self.queryHooks).any fun h => h == hook)

end Hooks

/-! What the calls come to, on any store. -/

namespace ControlStorage

/-- The hooks that are registered. -/
def registered (s : ControlStorage) : List Addr := s.hooks.getD []

/-- Whether a caller is refused what only the administrator may do, and with what. -/
def refuses (s : ControlStorage) (admin : Admin) (caller : Addr) : Option AdminError :=
  match s.admin with
  | none => some (.std admin.item.absent)
  | some owner => if owner = some caller then none else some .notAdmin

end ControlStorage

section Specs
variable {s : ControlStorage} {admin : Admin} {hooks : Hooks} {caller addr : Addr}

private theorem isAdmin_returns {owner : Option Addr} (h : s.admin = some owner) :
    (admin.isAdmin caller).Returns s (decide (owner = some caller)) s := by
  rw [Admin.isAdmin, Item.returns_load_bind]
  refine ⟨owner, h, ?_⟩
  cases owner with
  | none => exact (returns_pure _ _ _ _).mpr ⟨rfl, rfl⟩
  | some owner => exact (returns_pure _ _ _ _).mpr ⟨by simp [eq_comm], rfl⟩

private theorem isAdmin_aborts (h : s.admin = none) :
    (admin.isAdmin caller).Aborts s (.error admin.item.absent) s := by
  rw [Admin.isAdmin, Item.aborts_load_bind]
  exact .inl ⟨h, rfl, rfl⟩

theorem assertAdmin_returns (h : s.refuses admin caller = none) : (admin.assertAdmin caller).Returns s () s := by
  unfold ControlStorage.refuses at h
  cases hadmin : s.admin with
  | none =>
    rw [hadmin] at h
    cases h
  | some owner =>
    rw [hadmin] at h
    by_cases hcaller : owner = some caller
    · rw [Admin.assertAdmin, returns_bind_of_run ((isAdmin_returns hadmin).mapErr AdminError.std), decide_eq_true hcaller]
      rfl
    · cases (if_neg hcaller).symm.trans h

theorem assertAdmin_aborts {e : AdminError} (h : s.refuses admin caller = some e) :
    (admin.assertAdmin caller).Aborts s (.error e) s := by
  unfold ControlStorage.refuses at h
  cases hadmin : s.admin with
  | none =>
    rw [hadmin] at h
    cases h
    exact (aborts_bind_of_aborts ((isAdmin_aborts hadmin).mapErr AdminError.std) _ _ _).mpr ⟨rfl, rfl⟩
  | some owner =>
    rw [hadmin] at h
    by_cases hcaller : owner = some caller
    · cases (if_pos hcaller).symm.trans h
    · cases (if_neg hcaller).symm.trans h
      rw [Admin.assertAdmin, aborts_bind_of_run ((isAdmin_returns hadmin).mapErr AdminError.std), decide_eq_false hcaller]
      rfl

private theorem any_eq (registered : List Addr) (addr : Addr) :
    registered.any (fun h => h == addr) = decide (addr ∈ registered) := by
  rw [List.any_beq', List.contains_eq_mem]

theorem addHook_returns (h : addr ∉ s.registered) :
    (hooks.addHook addr).Returns s () { s with hooks := some (s.registered ++ [addr]) } := by
  have hload : hooks.item.mayLoad.Returns s s.hooks s := rfl
  rw [Hooks.addHook, returns_bind_of_run (hload.mapErr HookError.std)]
  have hnew : addr ∉ s.hooks.getD [] := h
  dsimp only
  rw [any_eq, decide_eq_false hnew]
  rfl

theorem addHook_aborts (h : addr ∈ s.registered) : (hooks.addHook addr).Aborts s (.error .hookAlreadyRegistered) s := by
  have hload : hooks.item.mayLoad.Returns s s.hooks s := rfl
  rw [Hooks.addHook, aborts_bind_of_run (hload.mapErr HookError.std)]
  have hold : addr ∈ s.hooks.getD [] := h
  dsimp only
  rw [any_eq, decide_eq_true hold]
  rfl

private theorem mem_registered (h : addr ∈ s.registered) : s.hooks = some s.registered := by
  unfold ControlStorage.registered at h ⊢
  cases hs : s.hooks with
  | none =>
    rw [hs] at h
    cases h
  | some registered => rfl

theorem removeHook_returns (h : addr ∈ s.registered) :
    (hooks.removeHook addr).Returns s () { s with hooks := some (s.registered.erase addr) } := by
  have hload : hooks.item.load.Returns s s.registered s := Item.load_returns (mem_registered h)
  obtain ⟨p, hp⟩ := Option.ne_none_iff_exists'.mp fun hnone => List.idxOf?_eq_none_iff.mp hnone h
  have herase : s.registered.erase addr = s.registered.eraseIdx p := by
    rw [List.erase_eq_eraseIdx, hp]
  have hfound : s.registered.findIdx? (fun x => x == addr) = some p := hp
  rw [Hooks.removeHook, returns_bind_of_run (hload.mapErr HookError.std), hfound, herase]
  rfl

/-- Without any hook ever registered, it is the list that is missing. -/
theorem removeHook_aborts (h : addr ∉ s.registered) : (hooks.removeHook addr).Aborts s
    (.error (if s.hooks = none then .std hooks.item.absent else .hookNotRegistered)) s := by
  cases hs : s.hooks with
  | none =>
    have hload : hooks.item.load.Aborts s (.error hooks.item.absent) s := Item.load_aborts hs
    exact (aborts_bind_of_aborts (hload.mapErr HookError.std) _ _ _).mpr ⟨rfl, rfl⟩
  | some registered =>
    have hload : hooks.item.load.Returns s registered s := Item.load_returns hs
    rw [ControlStorage.registered, hs, Option.getD_some] at h
    have hfound : registered.findIdx? (fun x => x == addr) = none := List.idxOf?_eq_none_iff.mpr h
    rw [Hooks.removeHook, aborts_bind_of_run (hload.mapErr HookError.std), hfound]
    rfl

theorem queryHook_returns (text : String) :
    (hooks.queryHook text).Returns s (decide (⟨text⟩ ∈ s.registered)) s := by
  have hany : (s.registered.map Addr.text).any (fun h => h == text) = decide (⟨text⟩ ∈ s.registered) := by
    rw [List.any_beq', List.contains_eq_mem]
    apply decide_eq_decide.mpr
    rw [List.mem_map]
    constructor
    · rintro ⟨_, hmem, rfl⟩
      exact hmem
    · exact fun hmem => ⟨_, hmem, rfl⟩
  rw [← hany]
  rfl

/-- Where each message can be built, there is one for each hook. -/
theorem prepareHooks_returns {μ : Type} (f : Addr → μ) :
    (hooks.prepareHooks fun addr => pure (f addr)).Returns s (s.registered.map f) s := by
  have hmap : (s.hooks.getD []).mapM (fun addr => (pure (f addr) : Txn ControlStorage StdError μ)) =
      pure (s.registered.map f) := List.mapM_pure
  rw [Hooks.prepareHooks, Item.returns_mayLoad_bind]
  change Returns ((s.hooks.getD []).mapM _) s _ s
  rw [hmap]
  rfl

theorem queryAdmin_returns {owner : Option Addr} (h : s.admin = some owner) :
    admin.queryAdmin.Returns s (owner.map Addr.text) s := by
  have hload : admin.item.load.Returns s owner s := Item.load_returns h
  exact (returns_bind_of_run hload _ _ _).mpr rfl

end Specs
end ComdexRwa.Controllers
