import AgentDev.Agents.Capabilities
import AgentDev.Python.Numerals
import AgentDev.Python.PosixPaths
import Mathlib.Data.List.Forall2

/-!
# Provider state

`agents/state.py` and the state mount of `core/models.py`: what a driver declares about the volumes
of its provider. A declaration consists of its fields and a proof that the check of the constructor
has accepted them.
-/

namespace AgentDev.Agents

open Python Policy

/-! ## Constructors -/

/-- `if not condition: raise error` -/
def ensure {ε : Type} (condition : Bool) (error : ε) : Except ε Unit :=
  if condition then .ok () else .error error

/-- A value of a class whose `__post_init__` is `check`. -/
def construct {α : Type} {check : Except Policy.Error Unit} (build : check = .ok () → α) :
    Except Policy.Error α :=
  match check, build with
  | .ok (), build => .ok (build rfl)
  | .error error, _ => .error error

instance decidableEqOk {ε : Type} (check : Except ε Unit) : Decidable (check = .ok ()) :=
  match check with
  | .ok () => isTrue rfl
  | .error _ => isFalse nofun

theorem ensure_ok {ε : Type} {condition : Bool} {error : ε} :
    ensure condition error = .ok () ↔ condition = true := by
  unfold ensure
  split <;> simp_all

@[simp]
theorem ensure_then_ok {ε α : Type} {condition : Bool} {error : ε} {next : Unit → Except ε α}
    {a : α} : (ensure condition error >>= next) = .ok a ↔ condition = true ∧ next () = .ok a := by
  rw [bind_ok_iff]
  constructor
  · rintro ⟨⟨⟩, hcondition, hnext⟩
    exact ⟨ensure_ok.mp hcondition, hnext⟩
  · rintro ⟨hcondition, hnext⟩
    exact ⟨(), ensure_ok.mpr hcondition, hnext⟩

theorem construct_ok {α : Type} {check : Except Policy.Error Unit} {build : check = .ok () → α} {a : α} :
    construct build = .ok a ↔ ∃ h, build h = a := by
  cases check with
  | ok =>
    constructor
    · intro h
      exact ⟨rfl, Except.ok.inj h⟩
    · rintro ⟨h, rfl⟩
      rfl
  | error error =>
    constructor
    · intro h
      cases h
    · rintro ⟨h, -⟩
      cases h

/-- All calls have to succeed. -/
theorem mapM_ok {ε α β : Type} {f : α → Except ε β} {items : List α} {results : List β} :
    items.mapM f = .ok results ↔ List.Forall₂ (fun a b => f a = .ok b) items results := by
  induction items generalizing results with
  | nil =>
    rw [List.mapM_nil, List.forall₂_nil_left_iff]
    constructor
    · intro h
      cases h
      rfl
    · rintro rfl
      rfl
  | cons a items ih =>
    simp only [List.mapM_cons, bind_ok_iff, List.forall₂_cons_left_iff]
    constructor
    · rintro ⟨b, hb, rest, hrest, h⟩
      cases h
      exact ⟨b, rest, hb, ih.mp hrest, rfl⟩
    · rintro ⟨b, rest, hb, hrest, rfl⟩
      exact ⟨b, hb, rest, ih.mpr hrest, rfl⟩

theorem mem_of_mapM_ok {ε α β : Type} {f : α → Except ε β} {items : List α} {results : List β}
    (h : items.mapM f = .ok results) {b : β} (hb : b ∈ results) : ∃ a ∈ items, f a = .ok b := by
  induction mapM_ok.mp h with
  | nil => cases hb
  | @cons a first items rest hfirst hrest ih =>
    rcases List.mem_cons.mp hb with rfl | hb
    · exact ⟨a, List.mem_cons_self, hfirst⟩
    · obtain ⟨a', ha', hok⟩ := ih (mapM_ok.mpr hrest) hb
      exact ⟨a', List.mem_cons_of_mem a ha', hok⟩

/-! ## Fields -/

/-- `_text` and `_require_text` -/
def requireText (value label : Str) : Except Policy.Error Unit := ensure (validText value) (textError label)

/-- A path that does not leave the place it starts from. -/
def staysBelow (value : Str) : Bool := str ".." ∉ pathParts value

/-- `_relative_path` -/
def relativePath (value label : Str) : Except Policy.Error Unit := do
  requireText value label
  ensure (!isAbsolute value && staysBelow value && value ∉ [str ".", str ".."])
    (valueError (label ++ str " must be a relative path without '..'"))

/-- `_absolute_path` -/
def absolutePath (value label : Str) : Except Policy.Error Unit := do
  requireText value label
  ensure (isAbsolute value && staysBelow value)
    (valueError (label ++ str " must be an absolute path without '..'"))

def checkAll {α : Type} (check : α → Except Policy.Error Unit) : List α → Except Policy.Error Unit
  | [] => .ok ()
  | a :: rest => do
    check a
    checkAll check rest

theorem checkAll_ok {α : Type} {check : α → Except Policy.Error Unit} {items : List α} :
    checkAll check items = .ok () ↔ ∀ a ∈ items, check a = .ok () := by
  induction items with
  | nil => simp [checkAll]
  | cons a rest ih =>
    rw [checkAll, bind_ok_iff, List.forall_mem_cons, ← ih]
    constructor
    · rintro ⟨⟨⟩, hfirst, hrest⟩
      exact ⟨hfirst, hrest⟩
    · rintro ⟨hfirst, hrest⟩
      exact ⟨(), hfirst, hrest⟩

/-! ## Volumes -/

structure ProviderStateSpec.Fields where
  source : Str
  target : Str
  readOnly : Bool := false
  deriving DecidableEq

def ProviderStateSpec.Fields.postInit (spec : Fields) : Except Policy.Error Unit := do
  ensure (spec.source ≠ [] && 0 ∉ spec.source)
    (valueError (str "provider state source must be a non-empty string without NUL"))
  ensure (spec.target ≠ [] && 0 ∉ spec.target)
    (valueError (str "provider state target must be a non-empty string without NUL"))
  ensure (isAbsolute spec.target && staysBelow spec.target)
    (valueError (str "provider state target must be an absolute container path without '..'"))

structure ProviderStateSpec extends ProviderStateSpec.Fields where
  checked : toFields.postInit = .ok ()

structure StateVolumeLayout.Fields where
  key : Str
  mount : ProviderStateSpec
  stagingTarget : Str
  marker : Str
  legacyPath : Option Str
  emptyError : Str
  smokeMarker : Str
  cleanupAfterCopy : List Str := []
  ownerUid : Option Int := none
  ownerGid : Option Int := none

def requireOwner (value : Option Int) (name : Str) : Except Policy.Error Unit :=
  ensure (value.all (0 ≤ ·)) (valueError (name ++ str " must be a non-negative integer or None"))

def StateVolumeLayout.Fields.postInit (layout : Fields) : Except Policy.Error Unit := do
  requireText layout.key (str "state volume key")
  absolutePath layout.stagingTarget (str "state staging target")
  relativePath layout.marker (str "state layout marker")
  checkAll (relativePath · (str "legacy state path")) layout.legacyPath.toList
  requireText layout.emptyError (str "empty-volume error")
  relativePath layout.smokeMarker (str "state smoke marker")
  checkAll (relativePath · (str "cleanup path")) layout.cleanupAfterCopy
  ensure (layout.ownerUid.isNone == layout.ownerGid.isNone)
    (valueError (str "state owner_uid and owner_gid must be set together"))
  requireOwner layout.ownerUid (str "owner_uid")
  requireOwner layout.ownerGid (str "owner_gid")

structure StateVolumeLayout extends StateVolumeLayout.Fields where
  checked : toFields.postInit = .ok ()

def StateVolumeLayout.make (fields : StateVolumeLayout.Fields) : Except Policy.Error StateVolumeLayout :=
  construct fun h => ⟨fields, h⟩

/-! ## Policy files and reconciled fields -/

structure StatePolicyMount.Fields where
  seedRelativePath : Str
  target : Str
  readOnly : Bool := true

def StatePolicyMount.Fields.postInit (mount : Fields) : Except Policy.Error Unit := do
  relativePath mount.seedRelativePath (str "policy seed path")
  absolutePath mount.target (str "policy target")

structure StatePolicyMount extends StatePolicyMount.Fields where
  checked : toFields.postInit = .ok ()

structure JsonFieldReconciliation.Fields where
  volumeKey : Str
  seedRelativePath : Str
  stateRelativePath : Str
  managedField : Str
  managedPaths : List (List Str) := []

/-- `any(ch in field for ch in ".[]'\"")` is false. -/
def isSimpleKey (field : Str) : Bool := field.all fun c => c ∉ str ".[]'\""

def requirePath (path : List Str) : Except Policy.Error Unit := do
  ensure (path ≠ []) (valueError (str "managed JSON path must be a non-empty tuple"))
  checkAll (fun field => do
    requireText field (str "managed JSON path field")
    ensure (isSimpleKey field)
      (valueError (str "managed JSON path fields must be simple object keys"))) path

def JsonFieldReconciliation.Fields.postInit (plan : Fields) : Except Policy.Error Unit := do
  requireText plan.volumeKey (str "reconciliation volume key")
  relativePath plan.seedRelativePath (str "reconciliation seed path")
  relativePath plan.stateRelativePath (str "reconciliation state path")
  requireText plan.managedField (str "managed JSON field")
  ensure (isSimpleKey plan.managedField)
    (valueError (str "managed JSON field must be a simple object key"))
  checkAll requirePath plan.managedPaths
  ensure plan.managedPaths.Nodup (valueError (str "managed JSON paths must be unique"))

structure JsonFieldReconciliation extends JsonFieldReconciliation.Fields where
  checked : toFields.postInit = .ok ()

/-! ## Adapters -/

structure ProviderStateAdapter.Fields where
  volumes : List StateVolumeLayout
  legacyVolume : Option Str := none
  policyMounts : List StatePolicyMount := []
  reconciliation : Option JsonFieldReconciliation := none
  primaryKey : Str := str "state"

/-- `ProviderStateAdapter.volume` -/
def ProviderStateAdapter.Fields.volume (adapter : Fields) (key : Str) :
    Except Policy.Error StateVolumeLayout :=
  match adapter.volumes.find? fun layout => layout.key = key with
  | some layout => .ok layout
  | none => .error (.key key)

def ProviderStateAdapter.Fields.postInit (adapter : Fields) : Except Policy.Error Unit := do
  ensure (adapter.volumes ≠ [] : Bool)
    (valueError (str "provider state adapter requires at least one volume"))
  ensure (adapter.volumes.map fun layout => layout.key).Nodup
    (valueError (str "state volume keys must be unique"))
  ensure (adapter.volumes.map fun layout => layout.mount.source).Nodup
    (valueError (str "state volume sources must be unique"))
  ensure (adapter.volumes.map fun layout => layout.mount.target).Nodup
    (valueError (str "state volume targets must be unique"))
  ensure (adapter.volumes.map fun layout => layout.stagingTarget).Nodup
    (valueError (str "state staging targets must be unique"))
  ensure (adapter.primaryKey ∈ adapter.volumes.map fun layout => layout.key)
    (valueError (str "primary state key must reference a configured volume"))
  checkAll (requireText · (str "legacy volume")) adapter.legacyVolume.toList
  ensure (adapter.policyMounts.map fun mount => mount.target).Nodup
    (valueError (str "policy mount targets must be unique"))
  checkAll (fun plan => do
    let _ ← adapter.volume plan.volumeKey) adapter.reconciliation.toList

structure ProviderStateAdapter extends ProviderStateAdapter.Fields where
  checked : toFields.postInit = .ok ()

namespace ProviderStateAdapter

def make (fields : ProviderStateAdapter.Fields) : Except Policy.Error ProviderStateAdapter :=
  construct fun h => ⟨fields, h⟩

def stateSpec (adapter : ProviderStateAdapter) : List ProviderStateSpec :=
  adapter.volumes.map fun layout => layout.mount

def staticLayout (mount : ProviderStateSpec) (index : Nat) : StateVolumeLayout.Fields where
  key := if index = 0 then str "state" else str "state-" ++ natRepr index
  mount := mount
  stagingTarget := str "/state" ++ natRepr index
  marker := str ".agent-dev-state-layout-v1"
  legacyPath := none
  emptyError := str "provider state volume is non-empty but has no layout marker"
  smokeMarker := str ".agent-dev-state-" ++ natRepr index ++ str "-write-smoke"

/-- `ProviderStateAdapter.static` -/
def static (mounts : List ProviderStateSpec) : Except Policy.Error ProviderStateAdapter := do
  ensure (!mounts.isEmpty) (valueError (str "static provider state requires at least one mount"))
  let layouts ← mounts.zipIdx.mapM fun (mount, index) =>
    StateVolumeLayout.make (staticLayout mount index)
  make { volumes := layouts }

end ProviderStateAdapter

end AgentDev.Agents
