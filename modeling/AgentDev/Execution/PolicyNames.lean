import AgentDev.Execution.PolicyFiles

/-!
# Names of generated policy files

The constructor of a generated policy file checks the parts of its name, and
`materialize_generated_policy_files` of `broker/daemon.py` builds paths from the text of the name.
`a/` and `./a` have a single part as well: the files of an item are entries of the provider's
directory, and of no other one, exactly if its name has no slash (`names_flat_iff`). The items of
`Execution.PolicyFiles` have such names.
-/

namespace AgentDev.PolicyFiles

open Python Agents

/-! ## Paths -/

/-- `root / text`, and the parts of `os.path.join(root, text)`. -/
def joinPath (root : List Str) (text : Str) : List Str :=
  if isAbsolute text then pathParts text else root ++ pathParts text

/-- The path of an entry of the directory itself. -/
def IsEntryOf (root path : List Str) : Prop :=
  ∃ part, isPart part = true ∧ part ≠ str ".." ∧ path = root ++ [part]

/-- `provider_root / f"{digest}-{item.name}"` -/
def destinationPath (root : List Str) (digest : Str) (item : GeneratedPolicyFileSpec) : List Str :=
  joinPath root (digest ++ str "-" ++ item.name)

/-- What `tempfile.mkstemp(prefix=f".{item.name}.", dir=provider_root)` opens, once it has drawn the
suffix. -/
def temporaryPath (root : List Str) (item : GeneratedPolicyFileSpec) (suffix : Str) : List Str :=
  joinPath root (str "." ++ item.name ++ str "." ++ suffix)

section

variable {item : GeneratedPolicyFileSpec} {root : List Str} {digest suffix : Str}

/-- What the constructor checks of a name. -/
theorem name_checked (item : GeneratedPolicyFileSpec) :
    item.name ≠ [] ∧ 0 ∉ item.name ∧ isAbsolute item.name = false ∧
      item.name ∉ [str ".", str ".."] := by
  obtain ⟨_, htext, hchecked⟩ := Policy.bind_ok_iff.mp item.checked
  obtain ⟨_, hname, -⟩ := Policy.bind_ok_iff.mp hchecked
  have hvalid := ensure_ok.mp htext
  have hbasename := ensure_ok.mp hname
  simp only [validText, Bool.and_eq_true, decide_eq_true_eq] at hvalid
  simp only [Bool.and_eq_true, Bool.not_eq_true', decide_eq_true_eq] at hbasename
  exact ⟨hvalid.1.1, hvalid.1.2, hbasename.1.1, hbasename.2⟩

/-! ## Names without a slash -/

theorem notMem_of_isHexDigest (h : IsHexDigest digest) : slash ∉ digest := by
  intro hmem
  exact absurd (h.2 slash hmem) (by decide)

theorem length_of_isSuffix (h : isSuffix suffix = true) : suffix.length = 8 := by
  simp only [isSuffix, Bool.and_eq_true, decide_eq_true_eq] at h
  exact h.1

theorem notMem_of_isSuffix (h : isSuffix suffix = true) : slash ∉ suffix := by
  intro hmem
  simp only [isSuffix, Bool.and_eq_true, List.all_eq_true, decide_eq_true_eq] at h
  exact absurd (h.2 slash hmem) (by decide)

theorem isPart_of_long {text : Str} (hlong : 2 ≤ text.length) (hslash : slash ∉ text) :
    isPart text = true := by
  apply isPart_iff.mpr
  refine ⟨?_, ?_, hslash⟩
  · rintro rfl
    cases hlong
  · rintro rfl
    exact absurd hlong (by decide)

/-- A text of three characters without a slash is the name of an entry. -/
theorem joinPath_of_long {text : Str} (hlong : 3 ≤ text.length) (hslash : slash ∉ text) :
    joinPath root text = root ++ [text] ∧ IsEntryOf root (joinPath root text) := by
  have hpart : isPart text = true := by
    apply isPart_of_long _ hslash
    omega
  have hrelative : isAbsolute text ≠ true := by
    intro habsolute
    exact hslash (List.mem_of_mem_head? (of_decide_eq_true habsolute))
  have hjoin : joinPath root text = root ++ [text] := by
    rw [joinPath, if_neg hrelative, pathParts_of_isPart hpart]
  refine ⟨hjoin, text, hpart, ?_, hjoin⟩
  rintro rfl
  exact absurd hlong (by decide)

theorem destinationPath_eq (hdigest : IsHexDigest digest) (hname : slash ∉ item.name) :
    destinationPath root digest item = root ++ [digest ++ str "-" ++ item.name] ∧
      IsEntryOf root (destinationPath root digest item) := by
  have hlength := hdigest.1
  have hdash : slash ∉ str "-" := by decide
  apply joinPath_of_long
  · rw [List.length_append, List.length_append]
    omega
  · simp only [List.mem_append, not_or]
    exact ⟨⟨notMem_of_isHexDigest hdigest, hdash⟩, hname⟩

theorem isEntryOf_temporaryPath (hsuffix : isSuffix suffix = true) (hname : slash ∉ item.name) :
    IsEntryOf root (temporaryPath root item suffix) := by
  have hdot : slash ∉ str "." := by decide
  have hlength := length_of_isSuffix hsuffix
  refine (joinPath_of_long ?_ ?_).2
  · simp only [List.length_append]
    omega
  · simp only [List.mem_append, not_or]
    exact ⟨⟨⟨hdot, hname⟩, hdot⟩, notMem_of_isSuffix hsuffix⟩

/-! ## Names with a slash -/

/-- The temporary file of a name with a slash is in another directory: there is a part before the first
slash, and one with the suffix. -/
theorem temporaryPath_of_mem (hsuffix : isSuffix suffix = true) (hname : slash ∈ item.name) :
    ∃ first before last, temporaryPath root item suffix = root ++ first :: before ++ [last] := by
  obtain ⟨first, rest, htext, hfirst⟩ := List.eq_append_cons_of_mem hname
  have hfirst_ne : first ≠ [] := by
    rintro rfl
    obtain ⟨-, -, hrelative, -⟩ := name_checked item
    rw [htext] at hrelative
    cases hrelative
  have hpart : isPart (str "." ++ first) = true := by
    apply isPart_of_long
    · rw [List.length_append]
      have hpositive := List.length_pos_iff.mpr hfirst_ne
      change 2 ≤ 1 + first.length
      omega
    · simp only [List.mem_append, not_or]
      exact ⟨by decide, hfirst⟩
  have htail : slash ∉ str "." ++ suffix := by
    simp only [List.mem_append, not_or]
    exact ⟨by decide, notMem_of_isSuffix hsuffix⟩
  have hlong : 2 ≤ (str "." ++ suffix).length := by
    rw [List.length_append, length_of_isSuffix hsuffix]
    omega
  obtain ⟨before, last, hlast⟩ := pathParts_append htail hlong rest
  refine ⟨str "." ++ first, before, last ++ (str "." ++ suffix), ?_⟩
  have hsplit : str "." ++ item.name ++ str "." ++ suffix =
      (str "." ++ first) ++ slash :: (rest ++ (str "." ++ suffix)) := by
    rw [htext]
    simp only [List.append_assoc, List.cons_append]
  have hrelative : isAbsolute (str "." ++ item.name ++ str "." ++ suffix) ≠ true := by
    intro habsolute
    cases habsolute
  rw [temporaryPath, joinPath, if_neg hrelative, hsplit, pathParts_append_slash,
    pathParts_of_isPart hpart, hlast]
  simp only [List.append_assoc, List.cons_append, List.nil_append]

/-! ## Names of items -/

/-- One component of a path. -/
def OneComponent (name : Str) : Prop := name ≠ [] ∧ slash ∉ name ∧ name ≠ str "." ∧ name ≠ str ".."

/-- Both files of the item are entries of the provider's directory, for every digest and every suffix. -/
def EntriesOnly (item : GeneratedPolicyFileSpec) : Prop :=
  ∀ root digest suffix, IsHexDigest digest → isSuffix suffix = true →
    IsEntryOf root (temporaryPath root item suffix) ∧ IsEntryOf root (destinationPath root digest item)

theorem oneComponent_iff (item : GeneratedPolicyFileSpec) :
    OneComponent item.name ↔ slash ∉ item.name := by
  obtain ⟨hne, -, -, hdots⟩ := name_checked item
  constructor
  · intro h
    exact h.2.1
  · intro hslash
    refine ⟨hne, hslash, ?_, ?_⟩
    · intro heq
      exact hdots (by rw [heq]; exact List.mem_cons_self)
    · intro heq
      exact hdots (by rw [heq]; exact List.mem_cons_of_mem _ List.mem_cons_self)

/-- The names that the interleaving calls are about. -/
theorem isFileName_iff (item : GeneratedPolicyFileSpec) :
    isFileName item.name = true ↔ slash ∉ item.name := by
  obtain ⟨hne, hzero, -, hdots⟩ := name_checked item
  simp only [isFileName, Bool.and_eq_true, decide_eq_true_eq]
  constructor
  · intro h
    exact h.1.1.2
  · intro hslash
    exact ⟨⟨⟨hne, hslash⟩, hzero⟩, hdots⟩

theorem entriesOnly_iff (item : GeneratedPolicyFileSpec) : EntriesOnly item ↔ slash ∉ item.name := by
  constructor
  · intro h hname
    have hdigest : IsHexDigest (List.replicate 64 48) := by
      refine ⟨rfl, ?_⟩
      intro c hc
      rw [List.eq_of_mem_replicate hc]
      decide
    have hsuffix : isSuffix (str "abcdefgh") = true := by decide
    obtain ⟨⟨part, -, -, hentry⟩, -⟩ := h [] _ _ hdigest hsuffix
    obtain ⟨first, before, last, hpath⟩ := temporaryPath_of_mem hsuffix hname
    have hlength := congrArg List.length (hentry.symm.trans hpath)
    simp at hlength
  · intro hname root digest suffix hdigest hsuffix
    exact ⟨isEntryOf_temporaryPath hsuffix hname, (destinationPath_eq hdigest hname).2⟩

end

/-- A name is a component, and the files of its item are entries of the provider's directory, exactly
if it has no slash; this holds of two items, and different names have different destinations, exactly
if neither name has one. -/
theorem names_flat_iff (a b : GeneratedPolicyFileSpec) :
    (OneComponent a.name ↔ slash ∉ a.name) ∧ (EntriesOnly a ↔ slash ∉ a.name) ∧
    ((OneComponent a.name ∧ EntriesOnly a) ∧ (OneComponent b.name ∧ EntriesOnly b) ∧
      (a.target = b.target → a.content = b.content → a.name ≠ b.name →
        ∀ root digest, IsHexDigest digest →
          destinationPath root digest a ≠ destinationPath root digest b) ↔
    slash ∉ a.name ∧ slash ∉ b.name) := by
  refine ⟨oneComponent_iff a, entriesOnly_iff a, ?_⟩
  constructor
  · rintro ⟨⟨ha, -⟩, ⟨hb, -⟩, -⟩
    exact ⟨ha.2.1, hb.2.1⟩
  · rintro ⟨ha, hb⟩
    refine ⟨⟨(oneComponent_iff a).mpr ha, (entriesOnly_iff a).mpr ha⟩,
      ⟨(oneComponent_iff b).mpr hb, (entriesOnly_iff b).mpr hb⟩, ?_⟩
    intro _ _ hne root digest hdigest heq
    rw [(destinationPath_eq hdigest ha).1, (destinationPath_eq hdigest hb).1,
      List.append_cancel_left_eq, List.singleton_inj, List.append_cancel_left_eq] at heq
    exact hne heq

/-- A policy of Cursor under another name. -/
def namedPolicy (name : Str) : GeneratedPolicyFileSpec.Fields :=
  ⟨name, str "/home/node/.cursor/sandbox.json", str "policy", true⟩

def plainPolicy : GeneratedPolicyFileSpec := ⟨namedPolicy (str "a"), by decide +kernel⟩

def slashedPolicy : GeneratedPolicyFileSpec := ⟨namedPolicy (str "a/"), by decide +kernel⟩

def dottedPolicy : GeneratedPolicyFileSpec := ⟨namedPolicy (str "./a"), by decide +kernel⟩

/-- The temporary file of the name `./a` is beside the provider's directory, and `a/` has the
destination of `a`. -/
theorem dottedPolicy_beside :
    temporaryPath [str "tasks", str ".run-policy", str "cursor"] dottedPolicy (str "abcdefgh") =
        [str "tasks", str ".run-policy", str "cursor", str "..", str "a.abcdefgh"] ∧
      ¬ IsEntryOf [str "tasks", str ".run-policy", str "cursor"]
        (temporaryPath [str "tasks", str ".run-policy", str "cursor"] dottedPolicy
          (str "abcdefgh")) ∧
      plainPolicy.name ≠ slashedPolicy.name ∧
      destinationPath [str "tasks"] (List.replicate 64 48) plainPolicy =
        destinationPath [str "tasks"] (List.replicate 64 48) slashedPolicy := by
  have hpath : temporaryPath [str "tasks", str ".run-policy", str "cursor"] dottedPolicy
      (str "abcdefgh") = [str "tasks", str ".run-policy", str "cursor", str "..",
        str "a.abcdefgh"] := by
    decide +kernel
  refine ⟨hpath, ?_, by decide, by decide +kernel⟩
  rintro ⟨part, -, -, hentry⟩
  rw [hpath] at hentry
  have hlength := congrArg List.length hentry
  cases hlength

end AgentDev.PolicyFiles
