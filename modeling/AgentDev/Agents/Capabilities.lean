import AgentDev.Policy.Schema
import Mathlib.Data.Finset.Sort

/-!
# Capabilities of an agent

`AgentCapabilities` of `agents/base.py`: what a driver declares about its provider. The workspace
modes and the security classes are checked against fixed sets; the compatibility modes and the policy
capabilities are free texts of one line.
-/

namespace AgentDev.Agents

open Python Policy

/-- `_require_text` -/
def validText (value : Str) : Bool := value ≠ [] && 0 ∉ value && 10 ∉ value

def textError (label : Str) : Policy.Error := valueError (label ++ str " must be a non-empty single-line string")

/-- `_WORKSPACE_MODES` -/
def workspaceModeNames : Finset Str := {str "readonly", str "writable"}

/-- `_SECURITY_CLASSES` -/
def securityClassNames : Finset Str := {str "compatibility", str "hardened"}

theorem compatibility_sub : {str "compatibility"} ⊆ securityClassNames := by decide

theorem compatibility_ne_empty : ({str "compatibility"} : Finset Str) ≠ ∅ := by decide

theorem validText_of_mem_empty : ∀ mode ∈ (∅ : Finset Str), validText mode = true := by decide

structure AgentCapabilities where
  workspaceModes : Finset Str
  interactiveAuth : Bool
  interactiveRun : Bool
  nativePolicy : Bool
  nativeSandbox : Bool
  compatibilityModes : Finset Str
  policyCapabilities : Finset Str
  securityClasses : Finset Str
  workspaceModes_sub : workspaceModes ⊆ workspaceModeNames
  workspaceModes_nonempty : workspaceModes ≠ ∅
  compatibilityModes_valid : ∀ mode ∈ compatibilityModes, validText mode = true
  policyCapabilities_valid : ∀ capability ∈ policyCapabilities, validText capability = true
  securityClasses_sub : securityClasses ⊆ securityClassNames
  securityClasses_nonempty : securityClasses ≠ ∅

/-- The list that is shown of a set of names. -/
def shownNames (names : Finset Str) : Value := .seq ((names.sort (· ≤ ·)).map .str)

/-- `AgentCapabilities(...)` for arguments of the declared types. -/
def AgentCapabilities.make (workspaceModes : Finset Str)
    (interactiveAuth interactiveRun nativePolicy nativeSandbox : Bool)
    (compatibilityModes policyCapabilities securityClasses : Finset Str) :
    Except Policy.Error AgentCapabilities :=
  if hmodes : workspaceModes ⊆ workspaceModeNames then
    if hmodes' : workspaceModes ≠ ∅ then
      if hcompatibility : ∀ mode ∈ compatibilityModes, validText mode = true then
        if hpolicy : ∀ capability ∈ policyCapabilities, validText capability = true then
          if hclasses : securityClasses ≠ ∅ then
            if hclasses' : securityClasses ⊆ securityClassNames then
              .ok ⟨workspaceModes, interactiveAuth, interactiveRun, nativePolicy, nativeSandbox,
                compatibilityModes, policyCapabilities, securityClasses, hmodes, hmodes',
                hcompatibility, hpolicy, hclasses', hclasses⟩
            else .error (.value [.text (str "unsupported security classes: "),
              .repr (shownNames (securityClasses \ securityClassNames))])
          else .error (valueError (str "at least one security class is required"))
        else .error (textError (str "policy capability"))
      else .error (textError (str "compatibility mode"))
    else .error (valueError (str "at least one workspace mode is required"))
  else .error (.value [.text (str "unsupported workspace modes: "),
    .repr (shownNames (workspaceModes \ workspaceModeNames))])

/-- The constructor accepts exactly the values of the type. -/
theorem AgentCapabilities.make_self (c : AgentCapabilities) :
    make c.workspaceModes c.interactiveAuth c.interactiveRun c.nativePolicy c.nativeSandbox
      c.compatibilityModes c.policyCapabilities c.securityClasses = .ok c := by
  rw [make, dif_pos c.workspaceModes_sub, dif_pos c.workspaceModes_nonempty,
    dif_pos c.compatibilityModes_valid, dif_pos c.policyCapabilities_valid,
    dif_pos c.securityClasses_nonempty, dif_pos c.securityClasses_sub]

end AgentDev.Agents
