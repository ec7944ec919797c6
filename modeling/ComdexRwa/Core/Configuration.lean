import ComdexRwa.Core.Runs

/-! The configuration: which token contract the invoices use, and which denominations they may be in.
The handler that sets it is told no sender, so what keeps it in its owner's hands is the senders alone. -/
namespace ComdexRwa.Core
open Foundation

/-- The configuration a call sets, if it sets one. -/
def Call.setsConfig : Call → Option Config
  | .execute _ (.setConfig nftAddress owner acceptedAssets) => some ⟨nftAddress, owner, acceptedAssets⟩
  | _ => none

/-- The denominations that a call states or attaches, and that the configuration has to list. -/
def Call.denoms : Call → List String
  | .execute _ (.createInvoice terms) => [terms.receivable.denom]
  | .execute info (.payInvoice _) => info.funds.map Coin.denom
  | _ => []

/-- The configuration was set by one of these calls, the first of its kind or made by the owner then. -/
def Granted (h : History) (config : Config) : Prop :=
  ∃ e ∈ h, ∃ info, e.call = .execute info (.setConfig config.nftAddress config.owner config.acceptedAssets) ∧
    ∀ old, e.before.config = some old → info.sender = old.owner

/-- Only the recorded owner changes a configuration, and anybody else who tries fails. -/
structure OwnerOnly (e : CallEvent) : Prop where
  changed : ∀ config, e.before.config = some config → e.after.config ≠ some config →
    ∃ info nftAddress owner acceptedAssets,
      e.call = .execute info (.setConfig nftAddress owner acceptedAssets) ∧ info.sender = config.owner
  refused : ∀ config info nftAddress owner acceptedAssets, e.before.config = some config →
    e.call = .execute info (.setConfig nftAddress owner acceptedAssets) → info.sender ≠ config.owner →
      (∃ f, e.reply = .error f) ∧ e.after.config = some config

/-- A call that returns addresses the configured token contract, and takes listed denominations alone. -/
structure Obeys (e : CallEvent) : Prop where
  addressed : ∀ r, e.reply = .ok r → ∀ x ∈ r.executes,
    ∃ config, e.before.config = some config ∧ x.1 = config.nftAddress.text
  accepted : ∀ r, e.reply = .ok r → ∀ denom ∈ e.call.denoms,
    ∃ config, e.before.config = some config ∧ config.accepts denom = true

/-- The successive owners alone decide, from the first configuration on, what the other calls obey. -/
structure ConfigAuthority (h : History) : Prop where
  ownerOnly : ∀ e ∈ h, OwnerOnly e
  granted : ∀ h₁ e h₂, h = h₁ ++ e :: h₂ → ∀ config, e.before.config = some config → Granted h₁ config
  obeys : ∀ e ∈ h, Obeys e

/-- A call that sets the configuration though another account owns it. -/
def usurps (s : Storage) (c : Call) : Prop :=
  ∃ config info nftAddress owner acceptedAssets, s.config = some config ∧
    c = .execute info (.setConfig nftAddress owner acceptedAssets) ∧ info.sender ≠ config.owner

section Laws
variable {env : Env} {h : History} {s s' : Storage} {c : Call} {r : Reply}

private theorem Call.eq_of_setsConfig {config : Config} (hc : c.setsConfig = some config) :
    ∃ info, c = .execute info (.setConfig config.nftAddress config.owner config.acceptedAssets) := by
  unfold Call.setsConfig at hc
  split at hc
  · cases hc
    exact ⟨_, rfl⟩
  · cases hc

/-- Every call leaves the configuration it sets, or else the one it found. -/
private theorem Effect.config (he : Effect env s c r s') : s'.config = c.setsConfig.or s.config := by
  cases he <;> rfl

/-- A call that fails sets none. -/
private theorem setsConfig_of_failed (hfail : ∀ r s', ¬ Effect env s c r s') : c.setsConfig = none := by
  cases hc : c.setsConfig with
  | none => rfl
  | some config =>
    obtain ⟨info, rfl⟩ := Call.eq_of_setsConfig hc
    exact (hfail _ _ (.setConfig info _ _ _)).elim

/-- The configuration in force is the last one set. -/
theorem config_eq_last (hr : Run (rwa env) h s) :
    s.config = (h.filterMap fun e => e.call.setsConfig).getLast? := by
  refine rwa_rule (I := fun h s => s.config = (h.filterMap fun e => e.call.setsConfig).getLast?) ?_ ?_ ?_ hr
  · exact fun info => rfl
  · intro h s c r s' _ ih _ he
    rw [he.config, ih]
    cases hc : c.setsConfig with
    | none => simp [hc]
    | some config => simp [hc]
  · intro h s c e _ ih _ hfail
    simp [setsConfig_of_failed hfail, ih]

private theorem ownerOnly_iff (he : Effect env s c r s') : OwnerOnly ⟨s, c, .ok r, s'⟩ ↔ ¬ usurps s c := by
  constructor
  · intro ho hx
    obtain ⟨config, info, _, _, _, hs, hc, hne⟩ := hx
    obtain ⟨⟨f, hf⟩, _⟩ := ho.refused config info _ _ _ hs hc hne
    cases hf
  · intro hno
    have howner {config : Config} {info : MessageInfo} {nftAddress owner : Addr} {acceptedAssets : List Asset}
        (hs : s.config = some config) (hc : c = .execute info (.setConfig nftAddress owner acceptedAssets)) :
        info.sender = config.owner := by
      by_contra hne
      exact hno ⟨config, info, _, _, _, hs, hc, hne⟩
    constructor
    · intro config hs hne
      cases hset : c.setsConfig with
      | none =>
        have hkept := he.config
        rw [hset] at hkept
        exact (hne (hkept.trans hs)).elim
      | some new =>
        obtain ⟨info, hc⟩ := Call.eq_of_setsConfig hset
        exact ⟨info, _, _, _, hc, howner hs hc⟩
    · intro config info _ _ _ hs hc hne
      exact (hne (howner hs hc)).elim

private theorem ownerOnly_all_iff (hr : Run (rwa env) h s) :
    (∀ e ∈ h, OwnerOnly e) ↔ ∀ e ∈ h, ¬ usurps e.before e.call := by
  refine rwa_throughout (L := fun _ => True) (fun _ _ => trivial) ?_ ?_ ?_ ?_ hr
  · intro s c _ hx
    obtain ⟨_, info, _, _, _, _, rfl, _⟩ := hx
    exact ⟨_, _, .setConfig info _ _ _⟩
  · exact fun info => ownerOnly_iff (Effect.opening env info)
  · exact fun h s c r s' _ _ he => ownerOnly_iff he
  · intro s c e _
    exact ⟨fun config hs hne => (hne hs).elim, fun config _ _ _ _ hs _ _ => ⟨⟨e, rfl⟩, hs⟩⟩

/-- Without usurpers every configuration comes from the first setter or an owner. -/
private theorem granted_of_run (hr : Run (rwa env) h s) (hno : ∀ e ∈ h, ¬ usurps e.before e.call) :
    ∀ config, s.config = some config → Granted h config := by
  refine rwa_rule (I := fun h s => (∀ e ∈ h, ¬ usurps e.before e.call) →
    ∀ config, s.config = some config → Granted h config) ?_ ?_ ?_ hr hno
  · intro info _ config hs
    cases hs
  · intro h s c r s' _ ih _ he hno config hs
    have hold (hs : s.config = some config) : Granted (h ++ [⟨s, c, .ok r, s'⟩]) config := by
      obtain ⟨e, hmem, hrest⟩ := ih (fun e hmem => hno e (List.mem_append_left _ hmem)) config hs
      exact ⟨e, List.mem_append_left _ hmem, hrest⟩
    rw [he.config] at hs
    cases hset : c.setsConfig with
    | none =>
      rw [hset] at hs
      exact hold hs
    | some new =>
      rw [hset] at hs
      cases hs
      obtain ⟨info, hc⟩ := Call.eq_of_setsConfig hset
      refine ⟨_, List.mem_append_right _ (List.mem_singleton_self _), info, hc, fun old hs => ?_⟩
      by_contra hne
      exact hno _ (List.mem_append_right _ (List.mem_singleton_self _)) ⟨old, info, _, _, _, hs, hc, hne⟩
  · intro h s c e _ ih _ _ hno config hs
    obtain ⟨x, hmem, hrest⟩ := ih (fun x hmem => hno x (List.mem_append_left _ hmem)) config hs
    exact ⟨x, List.mem_append_left _ hmem, hrest⟩

private theorem obeys_of_effect (he : Effect env s c r s') : Obeys ⟨s, c, .ok r, s'⟩ := by
  have hquiet (hm : r.executes = []) (hd : c.denoms = []) : Obeys ⟨s, c, .ok r, s'⟩ := by
    constructor
    · intro r' hok x hx
      cases hok
      rw [hm] at hx
      cases hx
    · intro _ _ denom hdenom
      change denom ∈ c.denoms at hdenom
      rw [hd] at hdenom
      cases hdenom
  cases he with
  | createInvoice hready =>
    refine ⟨fun r hok x hx => ?_, fun _ _ denom hdenom => ⟨_, hready.configured, ?_⟩⟩
    · cases hok
      rw [executes_createInvoiceReply, List.mem_singleton] at hx
      exact ⟨_, hready.configured, by rw [hx]⟩
    · rw [List.mem_singleton.mp hdenom]
      exact hready.listed
  | @payInvoice info k b hready =>
    refine ⟨fun r hok x hx => ?_, fun _ _ denom hdenom => ⟨_, hready.configured, ?_⟩⟩
    · cases hok
      rw [executes_payInvoiceReply] at hx
      split at hx
      · rw [List.mem_singleton] at hx
        exact ⟨_, hready.configured, by rw [hx]⟩
      · cases hx
    · change denom ∈ info.funds.map Coin.denom at hdenom
      rw [hready.single, List.map_singleton, List.mem_singleton] at hdenom
      rw [hdenom]
      exact hready.listed
  | _ => exact hquiet rfl rfl

private theorem obeys_of_run (hr : Run (rwa env) h s) : ∀ e ∈ h, Obeys e := by
  refine rwa_events ?_ ?_ ?_ hr
  · exact fun info => obeys_of_effect (Effect.opening env info)
  · exact fun h s c r s' _ _ he => obeys_of_effect he
  · exact fun h s c e _ _ _ => ⟨fun _ hok => (nomatch hok), fun _ hok => (nomatch hok)⟩

/-- The configuration stays in its owners' hands along a run exactly when nobody else sets it. -/
theorem config_authority_iff (hr : Run (rwa env) h s) :
    ConfigAuthority h ↔ ∀ e ∈ h, ¬ usurps e.before e.call := by
  rw [← ownerOnly_all_iff hr]
  refine ⟨fun ha => ha.ownerOnly, fun ho => ⟨ho, ?_, obeys_of_run hr⟩⟩
  rw [ownerOnly_all_iff hr] at ho
  rintro h₁ e h₂ rfl config hs
  rcases rwa_before hr with ⟨hempty, _⟩ | ⟨hb, _⟩
  · rw [hempty] at hs
    cases hs
  · exact granted_of_run hb (fun x hx => ho x (List.mem_append_left _ hx)) config hs

theorem config_authority_iff_of_configured :
    ConfigAuthority (Sample.history Sample.configured) ↔
      ∀ e ∈ Sample.history Sample.configured, ¬ usurps e.before e.call :=
  config_authority_iff (Sample.run Sample.configured (by decide))

/-- Bob, who owns nothing, points the contract to a token contract of his own. -/
def Sample.usurped : List Call :=
  Sample.configured ++ [Sample.call Sample.bob (.setConfig ⟨"bobs-nft"⟩ Sample.bob Sample.assets)]

/-- The call is carried out, and Bob is the owner from then on. -/
theorem config_usurped :
    Run (rwa Sample.env) (Sample.history Sample.usurped) (Sample.storage Sample.usurped) ∧
    (Sample.storage Sample.configured).config = some ⟨⟨"nft"⟩, Sample.owner, Sample.assets⟩ ∧
    (Sample.storage Sample.usurped).config = some ⟨⟨"bobs-nft"⟩, Sample.bob, Sample.assets⟩ ∧
    ¬ ConfigAuthority (Sample.history Sample.usurped) := by
  refine ⟨Sample.run Sample.usurped (by decide), by decide, by decide, ?_⟩
  intro ha
  have hevent : ∃ e ∈ Sample.history Sample.usurped,
      e.call = Sample.call Sample.bob (.setConfig ⟨"bobs-nft"⟩ Sample.bob Sample.assets) ∧
      e.before.config = some ⟨⟨"nft"⟩, Sample.owner, Sample.assets⟩ ∧
      e.after.config ≠ some ⟨⟨"nft"⟩, Sample.owner, Sample.assets⟩ := by decide
  obtain ⟨e, he, hc, hb, hne⟩ := hevent
  obtain ⟨info, _, _, _, hc', hsender⟩ := (ha.ownerOnly e he).changed _ hb hne
  cases hc.symm.trans hc'
  exact absurd hsender (by decide)

end Laws
end ComdexRwa.Core
