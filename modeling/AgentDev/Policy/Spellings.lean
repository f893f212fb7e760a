import AgentDev.Policy.Narrowing
import AgentDev.Policy.Serialization
import AgentDev.Python.Decimals

/-!
# Spellings of a policy

Two mappings can say the same in different ways: in another order of the fields or of the
destinations, with another unit of memory, or with a number of CPUs as an integral float (`Alike`).
Every check of the schema gives the same result for values that are alike (`Respects`), so the
policies are the same, and with them their canonical bytes.
-/

namespace AgentDev.Policy

open Python Python.Json

/-! ## Values that say the same -/

/-- The value is a size of memory: plain bytes, or a numeral and a unit. -/
inductive SpellsMemory : Value → Int → Prop
  | bytes (n : Int) : SpellsMemory (.int n) n
  | unit {n : Nat} {suffix : Str} {multiplier : Int}
      (h : memoryMultiplier suffix = some multiplier) :
      SpellsMemory (.str (natRepr n ++ suffix)) (n * multiplier)

/-- The values may differ in the order of the items of their mappings, in the order of a sequence, in the
spelling of a size of memory, and in whether an integral number is a `float`. -/
inductive Alike : Value → Value → Prop
  | same (value : Value) : Alike value value
  | memory {value value' : Value} {n : Int} (h : SpellsMemory value n) (h' : SpellsMemory value' n) :
      Alike value value'
  | toFloat (n : Int) : Alike (.int n) (.float (.finite n))
  | ofFloat (n : Int) : Alike (.float (.finite n)) (.int n)
  | order {values values' : List Value} (h : values.Perm values') : Alike (.seq values) (.seq values')
  | fields {d d' : Dict} (hnames : ∀ name, d.contains name = d'.contains name)
      (hvalues : ∀ name value value', d.get? name = some value → d'.get? name = some value' →
        Alike value value') : Alike (.dict d) (.dict d')

/-- The mappings have the same names, and values that are alike. -/
structure AlikeFields (d d' : Dict) : Prop where
  names : ∀ name, d.contains name = d'.contains name
  values : ∀ name value value', d.get? name = some value → d'.get? name = some value' →
    Alike value value'

/-- The items in the order of the second mapping are those of the first, or alike. -/
theorem Alike.reorder {d mid d' : Dict} (hperm : d.Perm mid) (hnodup : d.names.Nodup)
    (h : List.Forall₂ (fun item item' => item.1 = item'.1 ∧ Alike item.2 item'.2) mid d') :
    Alike (.dict d) (.dict d') := by
  have hlookup : ∀ name, d.get? name = none ∧ d'.get? name = none ∨
      ∃ value value', d.get? name = some value ∧ d'.get? name = some value' ∧ Alike value value' := by
    intro name
    have hmid : mid.get? name = none ∧ d'.get? name = none ∨ ∃ value value',
        mid.get? name = some value ∧ d'.get? name = some value' ∧ Alike value value' := by
      clear hperm
      induction h with
      | nil => exact Or.inl ⟨rfl, rfl⟩
      | @cons item item' rest rest' hitem hrest ih =>
        obtain ⟨key, value⟩ := item
        obtain ⟨key', value'⟩ := item'
        obtain ⟨hkey, halike⟩ : key = key' ∧ Alike value value' := hitem
        subst hkey
        simp only [Dict.get?, Dict.lookup_cons] at ih ⊢
        split
        · exact Or.inr ⟨value, value', rfl, rfl, halike⟩
        · exact ih
    have hsame : d.get? name = mid.get? name := by
      have hnodup' : mid.names.Nodup := (hperm.filterMap _).nodup_iff.mp hnodup
      cases hvalue : mid.get? name with
      | none =>
        by_contra hsome
        obtain ⟨value, hvalue'⟩ := Option.ne_none_iff_exists'.mp hsome
        obtain ⟨before, after, hsplit, -⟩ := List.lookup_eq_some_iff.mp hvalue'
        have hmem : (Key.str name, value) ∈ mid := hperm.mem_iff.mp (by simp [hsplit])
        rw [Dict.get?_of_mem hnodup' hmem] at hvalue
        cases hvalue
      | some value =>
        obtain ⟨before, after, hsplit, -⟩ := List.lookup_eq_some_iff.mp hvalue
        exact Dict.get?_of_mem hnodup (hperm.mem_iff.mpr (by simp [hsplit]))
    rw [hsame]
    exact hmid
  refine .fields (fun name => ?_) fun name value value' hvalue hvalue' => ?_
  · rcases hlookup name with ⟨hnone, hnone'⟩ | ⟨value, value', hvalue, hvalue', -⟩
    · rw [Dict.contains, Dict.contains, hnone, hnone']
    · rw [Dict.contains, Dict.contains, hvalue, hvalue']
      rfl
  · rcases hlookup name with ⟨hnone, -⟩ | ⟨_, _, hfound, hfound', halike⟩
    · cases hnone.symm.trans hvalue
    · cases hfound.symm.trans hvalue
      cases hfound'.symm.trans hvalue'
      exact halike

/-! ## Checks that give the same -/

section

variable {α β : Type}

/-- Values that are alike give the same result, if both are accepted. -/
def Respects (f : Value → Except Error α) : Prop :=
  ∀ value value' a a', Alike value value' → f value = .ok a → f value' = .ok a' → a = a'

/-- The same for functions of mappings. -/
def RespectsFields (f : Dict → Except Error α) : Prop :=
  ∀ d d' a a', AlikeFields d d' → f d = .ok a → f d' = .ok a' → a = a'

theorem Respects.record {path : Str} {required optional : List Str} {f : Dict → Except Error α}
    (hf : RespectsFields f) :
    Respects fun value => requireFields value path required optional >>= f := by
  intro value value' a a' halike h h'
  obtain ⟨d, hd, ha⟩ := bind_ok_iff.mp h
  obtain ⟨d', hd', ha'⟩ := bind_ok_iff.mp h'
  obtain ⟨rfl, -⟩ := requireFields_ok hd
  obtain ⟨rfl, -⟩ := requireFields_ok hd'
  refine hf d d' a a' ?_ ha ha'
  cases halike with
  | same =>
    refine ⟨fun _ => rfl, fun name value value' hvalue hvalue' => ?_⟩
    cases hvalue.symm.trans hvalue'
    exact .same value
  | fields hnames hvalues => exact ⟨hnames, hvalues⟩
  | memory h => cases h

theorem RespectsFields.const {x : Except Error α} : RespectsFields fun _ => x := by
  intro d d' a a' _ h h'
  exact Except.ok.inj (h.symm.trans h')

/-- A field is checked, and then the rest. -/
theorem RespectsFields.field {name : Str} {f : Value → Except Error α}
    {k : α → Dict → Except Error β} (hf : Respects f) (hk : ∀ a, RespectsFields (k a)) :
    RespectsFields fun d => item d name >>= fun value => f value >>= fun a => k a d := by
  intro d d' b b' halike h h'
  obtain ⟨value, hvalue, h⟩ := bind_ok_iff.mp h
  obtain ⟨value', hvalue', h'⟩ := bind_ok_iff.mp h'
  obtain ⟨a, ha, h⟩ := bind_ok_iff.mp h
  obtain ⟨a', ha', h'⟩ := bind_ok_iff.mp h'
  have hvalues := halike.values name value value' (item_ok hvalue) (item_ok hvalue')
  cases hf _ _ a a' hvalues ha ha'
  exact hk a d d' b b' halike h h'

theorem RespectsFields.optional {name : Str} {default : Value} {f : Value → Except Error α}
    {k : α → Dict → Except Error β} (hf : Respects f) (hk : ∀ a, RespectsFields (k a)) :
    RespectsFields fun d => f ((d.get? name).getD default) >>= fun a => k a d := by
  intro d d' b b' halike h h'
  obtain ⟨a, ha, h⟩ := bind_ok_iff.mp h
  obtain ⟨a', ha', h'⟩ := bind_ok_iff.mp h'
  have hvalues : Alike ((d.get? name).getD default) ((d'.get? name).getD default) := by
    have hnames : (d.get? name).isSome = (d'.get? name).isSome := halike.names name
    cases hvalue : d.get? name with
    | none =>
      have hnone : d'.get? name = none := by
        rw [hvalue] at hnames
        exact Option.isNone_iff_eq_none.mp (Option.isSome_eq_false_iff.mp hnames.symm)
      rw [hnone]
      exact .same default
    | some value =>
      rw [hvalue] at hnames
      obtain ⟨value', hvalue'⟩ := Option.isSome_iff_exists.mp hnames.symm
      rw [hvalue']
      exact halike.values name value value' hvalue hvalue'
  cases hf _ _ a a' hvalues ha ha'
  exact hk a d d' b b' halike h h'

end

/-! ## The checks of single values -/

/-- Strings that are alike are equal, or both are sizes of memory. -/
theorem Alike.str_eq {s s' : Str} (h : Alike (.str s) (.str s')) :
    s = s' ∨ ∃ c ∈ s.head?, isDigit c = true := by
  cases h with
  | same => exact Or.inl rfl
  | memory h h' =>
    cases h with
    | @unit n suffix =>
      right
      rcases natRepr_head n with h | ⟨c, rest, h, -, hc, -⟩
      · exact ⟨ord '0', by rw [h]; rfl, by decide⟩
      · exact ⟨c, by rw [h]; rfl, hc⟩

/-- No choice begins with a digit. -/
theorem respects_choice {α : Type} {choices : Choices α} {path : Str}
    (hchoices : choices.all (fun choice => choice.1.all fun c => !isDigit c) = true) :
    Respects fun value => requireChoice value path choices := by
  intro value value' a a' halike h h'
  obtain ⟨text, rfl, hlookup⟩ := requireChoice_ok h
  obtain ⟨text', rfl, hlookup'⟩ := requireChoice_ok h'
  rcases halike.str_eq with rfl | ⟨c, hc, hdigit⟩
  · exact Option.some.inj (hlookup.symm.trans hlookup')
  · obtain ⟨before, after, hsplit, -⟩ := List.lookup_eq_some_iff.mp hlookup
    have hmem : (text, a) ∈ choices := by simp [hsplit]
    have hnone := List.all_eq_true.mp (List.all_eq_true.mp hchoices _ hmem) c
      (List.mem_of_mem_head? hc)
    rw [hdigit] at hnone
    cases hnone

theorem respects_bool {path : Str} : Respects fun value => requireBool value path := by
  intro value value' a a' halike h h'
  cases halike with
  | same => exact Except.ok.inj (h.symm.trans h')
  | memory h₁ h₂ => cases h₁ <;> cases h
  | _ => cases h

theorem respects_positiveInt {path : Str} : Respects fun value => requirePositiveInt value path := by
  intro value value' a a' halike h h'
  cases halike with
  | same => exact Except.ok.inj (h.symm.trans h')
  | memory hn hn' =>
    cases hn with
    | bytes n =>
      cases hn' with
      | bytes => exact Except.ok.inj (h.symm.trans h')
      | unit => cases h'
    | unit => cases h
  | toFloat n => cases h'
  | ofFloat n => cases h
  | order => cases h
  | fields => cases h

theorem respects_version : Respects requireVersion :=
  fun _ _ a a' _ _ _ => Subtype.ext (a.property.trans a'.property.symm)

/-- The value of a number. -/
def number? : Value → Option Rat
  | .int n => some n
  | .float (.finite q) => some q
  | _ => none

theorem Alike.number_eq {value value' : Value} {q q' : Rat} (halike : Alike value value')
    (h : number? value = some q) (h' : number? value' = some q') : q = q' := by
  cases halike with
  | same => exact Option.some.inj (h.symm.trans h')
  | memory hn hn' =>
    cases hn with
    | bytes n =>
      cases hn' with
      | bytes => exact Option.some.inj (h.symm.trans h')
      | unit => cases h'
    | unit => cases h
  | toFloat n => exact (Option.some.inj h).symm.trans (Option.some.inj h')
  | ofFloat n => exact (Option.some.inj h).symm.trans (Option.some.inj h')
  | order => cases h
  | fields => cases h

theorem normalizeCpu_ok {value : Value} {cpu : { q : Rat // 0 < q }}
    (h : normalizeCpu value = .ok cpu) : number? value = some cpu.val := by
  unfold normalizeCpu at h
  split at h
  · split at h
    · cases h
      rfl
    · cases h
  · split at h
    · cases h
      rfl
    · cases h
  · cases h
  · cases h

theorem respects_cpu : Respects normalizeCpu := by
  intro value value' a a' halike h h'
  exact Subtype.ext (halike.number_eq (normalizeCpu_ok h) (normalizeCpu_ok h'))

theorem memoryMultiplier_noDigit {suffix : Str} {multiplier : Int}
    (h : memoryMultiplier suffix = some multiplier) : NoDigit suffix := by
  unfold memoryMultiplier at h
  split_ifs at h with h0 h1 h2 h3 h4
  · subst h0
    exact fun c hc => nomatch hc
  all_goals
    intro c hc
    have hcases : suffix.all (fun c => !isDigit c) = true := by
      first
      | rcases h1 with rfl | rfl <;> decide
      | rcases h2 with rfl | rfl <;> decide
      | rcases h3 with rfl | rfl <;> decide
      | rcases h4 with rfl | rfl <;> decide
    have hdigit := List.all_eq_true.mp hcases c (List.mem_of_mem_head? hc)
    simpa using hdigit

/-- An accepted size is the one that is spelled. -/
theorem normalizeMemory_spelled {value : Value} {n m : Int} (hspells : SpellsMemory value n)
    (h : normalizeMemory value = .ok m) : m = n := by
  cases hspells with
  | bytes =>
    simp only [normalizeMemory] at h
    split at h
    · cases h
      rfl
    · cases h
  | @unit k suffix multiplier hsuffix =>
    have hnone := memoryMultiplier_noDigit hsuffix
    have htake : (natRepr k ++ suffix).takeWhile (fun c => (digit? c).isSome) = natRepr k :=
      takeWhile_digits (natRepr_digits k) hnone
    have hdrop : (natRepr k ++ suffix).dropWhile (fun c => (digit? c).isSome) = suffix :=
      dropWhile_digits (natRepr_digits k) hnone
    simp only [normalizeMemory, htake, hdrop, hsuffix, natOfDigits_natRepr] at h
    split at h
    · rename_i first multiplier' hfirst hmultiplier
      cases hmultiplier
      split at h
      · cases h
      · split at h
        · cases h
        · exact (Except.ok.inj h).symm
    · cases h

theorem respects_memory : Respects normalizeMemory := by
  intro value value' a a' halike h h'
  cases halike with
  | same => exact Except.ok.inj (h.symm.trans h')
  | memory hn hn' => rw [normalizeMemory_spelled hn h, normalizeMemory_spelled hn' h']
  | toFloat n => cases h'
  | ofFloat n => cases h
  | order => cases h
  | fields => cases h

theorem sorted_of_perm {strings strings' : List Str} (h : strings.Perm strings') :
    Python.sorted strings = Python.sorted strings' := by
  have hperm : (Python.sorted strings).Perm (Python.sorted strings') :=
    ((List.perm_insertionSort _ _).trans h).trans (List.perm_insertionSort _ _).symm
  exact hperm.eq_of_pairwise (fun _ _ _ _ hab hba => le_antisymm hab hba)
    (List.pairwise_insertionSort ..) (List.pairwise_insertionSort ..)

theorem respects_destinations : Respects normalizeDestinations := by
  intro value value' a a' halike h h'
  obtain ⟨items, hvalue, hitems⟩ := normalizeDestinations_ok h
  obtain ⟨items', hvalue', hitems'⟩ := normalizeDestinations_ok h'
  refine Destinations.ext_items ?_
  rw [hitems, hitems']
  have hinj : Function.Injective Value.str := fun _ _ heq => Value.str.inj heq
  cases halike with
  | same =>
    cases hvalue
    rw [List.map_injective_iff.mpr hinj (Value.seq.inj hvalue')]
  | order hperm =>
    cases hvalue
    cases hvalue'
    exact sorted_of_perm ((List.map_perm_map_iff hinj).mp hperm)
  | memory hm =>
    cases hm <;> cases hvalue
  | toFloat => cases hvalue
  | ofFloat => cases hvalue
  | fields => cases hvalue

/-! ## Policies -/

theorem WorkspacePolicy.respects : Respects fromDict :=
  .record (.field (respects_choice (by decide)) fun _ => .const)

theorem ReferencePolicy.respects : Respects fromDict :=
  .record (.field (respects_choice (by decide)) fun _ => .const)

theorem FilesystemPolicy.respects : Respects fromDict :=
  .record (.field (respects_choice (by decide)) fun _ => .const)

theorem TaskShellNetworkPolicy.respects : Respects fromDict :=
  .record (.field (respects_choice (by decide)) fun _ =>
    .optional respects_destinations fun _ => .const)

theorem NetworkPolicy.respects : Respects fromDict :=
  .record (.field TaskShellNetworkPolicy.respects fun _ => .const)

theorem ProviderAuthPolicy.respects : Respects fromDict :=
  .record (.field (respects_choice (by decide)) fun _ => .const)

theorem CredentialsPolicy.respects : Respects fromDict :=
  .record (.field ProviderAuthPolicy.respects fun _ => .const)

theorem GitPolicy.respects : Respects fromDict :=
  .record (.field respects_bool fun _ => .field respects_bool fun _ =>
    .field respects_bool fun _ => .const)

theorem SandboxPolicy.respects : Respects fromDict :=
  .record (.field respects_bool fun _ => .const)

theorem PolicyResourceLimits.respects : Respects fromDict :=
  .record (.field respects_cpu fun _ => .field respects_memory fun _ =>
    .field respects_positiveInt fun _ => .const)

theorem ExecutionPolicy.respects : Respects fromDict :=
  .record (.field respects_version fun _ => .field WorkspacePolicy.respects fun _ =>
    .field ReferencePolicy.respects fun _ => .field FilesystemPolicy.respects fun _ =>
    .field NetworkPolicy.respects fun _ => .field CredentialsPolicy.respects fun _ =>
    .field GitPolicy.respects fun _ => .field SandboxPolicy.respects fun _ =>
    .field PolicyResourceLimits.respects fun _ =>
    .field (respects_choice (by decide)) fun _ => .const)

/-! ## Canonical texts -/

mutual

/-- The finite floats of the value are doubles, as those of Python are. -/
def Doubles : Value → Prop
  | .float (.finite q) => IsDouble q
  | .seq values => AllDoubles values
  | .dict items => ItemsDoubles items
  | _ => True

def AllDoubles : List Value → Prop
  | [] => True
  | value :: rest => Doubles value ∧ AllDoubles rest

def ItemsDoubles : List (Key × Value) → Prop
  | [] => True
  | (_, value) :: rest => Doubles value ∧ ItemsDoubles rest

end

theorem doubles_of_mem {d : List (Key × Value)} {item : Key × Value} (h : ItemsDoubles d)
    (hitem : item ∈ d) : Doubles item.2 := by
  induction d with
  | nil => cases hitem
  | cons first rest ih =>
    rcases List.mem_cons.mp hitem with rfl | hrest
    · exact h.1
    · exact ih h.2 hrest

theorem doubles_item {value value' : Value} {path name : Str} {required optional : List Str}
    {data : Dict} (h : Doubles value) (hdata : requireFields value path required optional = .ok data)
    (hvalue : item data name = .ok value') : Doubles value' := by
  obtain ⟨rfl, -⟩ := requireFields_ok hdata
  obtain ⟨before, after, hsplit, -⟩ := List.lookup_eq_some_iff.mp (item_ok hvalue)
  have hmem : (Key.str name, value') ∈ data := by simp [hsplit]
  exact doubles_of_mem h hmem

theorem representable_of_limits {value : Value} {p : PolicyResourceLimits}
    (h : PolicyResourceLimits.fromDict value = .ok p) (hdoubles : Doubles value) :
    p.Representable := by
  simp only [PolicyResourceLimits.fromDict, bind_ok_iff] at h
  obtain ⟨data, hdata, number, hitem, cpu, hcpu, _, -, memory, -, _, -, pids, -, bytes, -, hp⟩ := h
  have hnumber : Doubles number := doubles_item hdoubles hdata hitem
  have hvalue := normalizeCpu_ok hcpu
  cases hp
  cases number with
  | int n =>
    left
    show cpu.val.den = 1
    rw [← Option.some.inj hvalue]
    exact Rat.den_intCast n
  | float x =>
    cases x with
    | finite q =>
      right
      show IsDouble cpu.val
      rw [← Option.some.inj hvalue]
      exact hnumber
    | _ => cases hvalue
  | _ => cases hvalue

theorem representable_of_fromDict {value : Value} {p : ExecutionPolicy}
    (h : ExecutionPolicy.fromDict value = .ok p) (hdoubles : Doubles value) :
    p.resources.Representable := by
  simp only [ExecutionPolicy.fromDict, bind_ok_iff] at h
  obtain ⟨data, hdata, _, -, version, -, _, -, workspace, -, _, -, reference, -, _, -, filesystem, -,
    _, -, network, -, _, -, credentials, -, _, -, git, -, _, -, sandbox, -, limits, hitem, resources,
    hresources, _, -, securityClass, -, hp⟩ := h
  cases hp
  exact representable_of_limits hresources (doubles_item hdoubles hdata hitem)

section

variable {floats : FloatText} {p p' : ExecutionPolicy}

theorem canonicalPolicyJson_inj (h : p.resources.Representable) (hlimit : p.resources.Convertible)
    (h' : p'.resources.Representable) (hlimit' : p'.resources.Convertible)
    (heq : canonicalPolicyJson floats p = canonicalPolicyJson floats p') : p = p' := by
  obtain ⟨text, value, htext, hloads, hfrom⟩ := canonicalPolicyJson_loads h hlimit
  obtain ⟨text', value', htext', hloads', hfrom'⟩ := canonicalPolicyJson_loads h' hlimit'
  rw [htext, htext'] at heq
  cases heq
  cases hloads.symm.trans hloads'
  exact Except.ok.inj (hfrom.symm.trans hfrom')

theorem canonicalPolicyBytes_inj (h : p.resources.Representable) (hlimit : p.resources.Convertible)
    (h' : p'.resources.Representable) (hlimit' : p'.resources.Convertible)
    (hscalar : p.ScalarDestinations) (hscalar' : p'.ScalarDestinations)
    (heq : canonicalPolicyBytes floats p = canonicalPolicyBytes floats p') : p = p' := by
  obtain ⟨text, value, htext, -⟩ := canonicalPolicyJson_loads h hlimit
  obtain ⟨text', value', htext', -⟩ := canonicalPolicyJson_loads h' hlimit'
  obtain ⟨bytes, hencode, hbytes⟩ := canonicalPolicyBytes_eq h hlimit hscalar htext
  obtain ⟨bytes', hencode', hbytes'⟩ := canonicalPolicyBytes_eq h' hlimit' hscalar' htext'
  rw [hbytes, hbytes'] at heq
  cases heq
  cases encodeUtf8_inj hencode hencode'
  exact canonicalPolicyJson_inj h hlimit h' hlimit' (htext.trans htext'.symm)

end

/-- The canonical text of a policy is read back as the policy. So it determines the policy, and it
does not depend on how a mapping spells the policy. -/
theorem canonical_policy (floats : FloatText) :
    (∀ p : ExecutionPolicy, p.resources.Representable → p.resources.Convertible →
      ∃ text value, canonicalPolicyJson floats p = .ok text ∧ loads floats text = .ok value ∧
        ExecutionPolicy.fromDict value = .ok p) ∧
    ∀ (input input' : Value) (p p' : ExecutionPolicy), Doubles input → Doubles input' →
      ExecutionPolicy.fromDict input = .ok p → ExecutionPolicy.fromDict input' = .ok p' →
      p.resources.Convertible → p'.resources.Convertible →
      (canonicalPolicyJson floats p = canonicalPolicyJson floats p' ↔ p = p') ∧
      (Alike input input' → canonicalPolicyJson floats p = canonicalPolicyJson floats p' ∧
        canonicalPolicyBytes floats p = canonicalPolicyBytes floats p') ∧
      (p.ScalarDestinations → p'.ScalarDestinations →
        (∃ bytes, canonicalPolicyBytes floats p = .ok bytes) ∧
        (canonicalPolicyBytes floats p = canonicalPolicyBytes floats p' ↔ p = p')) := by
  refine ⟨fun p h hlimit => canonicalPolicyJson_loads h hlimit, ?_⟩
  intro input input' p p' hdoubles hdoubles' hinput hinput' hlimit hlimit'
  have h := representable_of_fromDict hinput hdoubles
  have h' := representable_of_fromDict hinput' hdoubles'
  refine ⟨⟨canonicalPolicyJson_inj h hlimit h' hlimit', congrArg _⟩, fun halike => ?_,
    fun hscalar hscalar' => ⟨?_, canonicalPolicyBytes_inj h hlimit h' hlimit' hscalar hscalar',
      congrArg _⟩⟩
  · have hsame : p = p' := ExecutionPolicy.respects input input' p p' halike hinput hinput'
    exact ⟨congrArg _ hsame, congrArg _ hsame⟩
  · obtain ⟨text, htext⟩ : ∃ text, canonicalPolicyJson floats p = .ok text := by
      obtain ⟨text, -, htext, -⟩ := canonicalPolicyJson_loads h hlimit
      exact ⟨text, htext⟩
    obtain ⟨bytes, -, hbytes⟩ := canonicalPolicyBytes_eq h hlimit hscalar htext
    exact ⟨bytes, hbytes⟩

/-- A policy whose limits and destinations are spelled as given. -/
def exampleInput (destinations : List Str) (limits : List (String × Value)) : Value :=
  record [("resources", record limits), ("version", .int 1),
    ("workspace", record [("access", .str (str "write"))]),
    ("reference", record [("access", .str (str "read"))]),
    ("filesystem", record [("external", .str (str "deny"))]),
    ("network", record [("task_shell", record [("mode", .str (str "allowlist")),
      ("destinations", .seq (destinations.map .str))])]),
    ("credentials", record [("provider_auth", record [("task_shell", .str (str "deny"))])]),
    ("git", record [("read", .bool true), ("commit", .bool true), ("push", .bool false)]),
    ("sandbox", record [("required", .bool true)]),
    ("security_class", .str (str "hardened"))]

def exampleSpelling : Value :=
  exampleInput [str "pypi.org", str "npmjs.org"]
    [("cpu", .float (.finite 4)), ("memory", .str (str "8G")), ("pids", .int 1024)]

def exampleRespelling : Value :=
  exampleInput [str "npmjs.org", str "pypi.org"]
    [("pids", .int 1024), ("memory", .int 8589934592), ("cpu", .int 4)]

theorem examplePids_pos : (0 : Int) < 1024 := by decide

def examplePolicy : ExecutionPolicy :=
  { exampleBaseline with
    filesystem := ⟨.deny⟩
    network := ⟨⟨.allowlist, ⟨[str "npmjs.org", str "pypi.org"], by decide, by decide⟩, by decide⟩⟩
    credentials := ⟨⟨.deny⟩⟩
    resources := ⟨4, 8589934592, 1024, by decide, by decide, examplePids_pos⟩
    securityClass := .hardened }

theorem exampleSpelling_alike : Alike exampleSpelling exampleRespelling := by
  have hmemory : Alike (.str (str "8G")) (.int 8589934592) :=
    .memory (@SpellsMemory.unit 8 (str "G") (1024 ^ 3) rfl) (.bytes _)
  have hlimits : Alike (record [("cpu", .float (.finite 4)), ("memory", .str (str "8G")),
      ("pids", .int 1024)]) (record [("pids", .int 1024), ("memory", .int 8589934592),
        ("cpu", .int 4)]) :=
    .reorder (List.reverse_perm _).symm (by decide)
      (.cons ⟨rfl, .same _⟩ (.cons ⟨rfl, hmemory⟩ (.cons ⟨rfl, .ofFloat 4⟩ .nil)))
  have hdestinations : Alike (.seq [.str (str "pypi.org"), .str (str "npmjs.org")])
      (.seq [.str (str "npmjs.org"), .str (str "pypi.org")]) := .order (.swap _ _ _)
  have htaskShell : Alike
      (record [("mode", .str (str "allowlist")),
        ("destinations", .seq [.str (str "pypi.org"), .str (str "npmjs.org")])])
      (record [("mode", .str (str "allowlist")),
        ("destinations", .seq [.str (str "npmjs.org"), .str (str "pypi.org")])]) :=
    .reorder (.refl _) (by decide)
      (.cons ⟨rfl, .same _⟩ (.cons ⟨rfl, hdestinations⟩ .nil))
  exact .reorder (.refl _) (by decide) (.cons ⟨rfl, hlimits⟩ (.cons ⟨rfl, .same _⟩
    (.cons ⟨rfl, .same _⟩ (.cons ⟨rfl, .same _⟩ (.cons ⟨rfl, .same _⟩
      (.cons ⟨rfl, .reorder (.refl _) (List.nodup_singleton _) (.cons ⟨rfl, htaskShell⟩ .nil)⟩
        (.cons ⟨rfl, .same _⟩ (.cons ⟨rfl, .same _⟩ (.cons ⟨rfl, .same _⟩
          (.cons ⟨rfl, .same _⟩ .nil))))))))))

theorem doubles_exampleInput (destinations : List Str) {limits : List (String × Value)}
    (h : ItemsDoubles (items limits)) : Doubles (exampleInput destinations limits) := by
  have hdestinations : AllDoubles (destinations.map .str) := by
    induction destinations with
    | nil => trivial
    | cons _ rest ih => exact ⟨trivial, ih⟩
  simp only [exampleInput, record, items, List.map, Doubles, ItemsDoubles, and_true, true_and]
  exact ⟨h, hdestinations⟩

def exampleFraction : Rat := ⟨5, 2, by decide, by decide⟩

/-- The policy with two and a half CPUs. -/
def exampleFractional : ExecutionPolicy :=
  { examplePolicy with
    resources := ⟨exampleFraction, 8589934592, 1024, by decide, by decide, examplePids_pos⟩ }

def exampleFractionalInput : Value :=
  exampleInput [str "pypi.org", str "npmjs.org"]
    [("cpu", .float (.finite exampleFraction)), ("memory", .str (str "8192m")), ("pids", .int 1024)]

/-- Two spellings of one policy, and a policy that differs in its number of CPUs. -/
theorem canonical_policy_example :
    (∃ p p', ExecutionPolicy.fromDict exampleSpelling = .ok p ∧
      ExecutionPolicy.fromDict exampleRespelling = .ok p' ∧
      canonicalPolicyBytes exactDecimals p = canonicalPolicyBytes exactDecimals p') ∧
    canonicalPolicyBytes exactDecimals examplePolicy ≠
      canonicalPolicyBytes exactDecimals exampleFractional ∧
    ∃ text value, canonicalPolicyJson exactDecimals exampleFractional = .ok text ∧
      loads exactDecimals text = .ok value ∧
      ExecutionPolicy.fromDict value = .ok exampleFractional := by
  have hfraction : IsDouble exampleFraction := by
    refine ⟨5, -1, by decide, by decide, by decide, ?_⟩
    rw [exampleFraction, Rat.mk_eq_divInt, Rat.divInt_eq_div]
    norm_num
  have hspelling : Doubles exampleSpelling := by
    refine doubles_exampleInput _ ⟨?_, trivial, trivial, trivial⟩
    exact ⟨4, 0, by decide, by decide, by decide, by norm_num⟩
  have hrespelling : Doubles exampleRespelling :=
    doubles_exampleInput _ ⟨trivial, trivial, trivial, trivial⟩
  have hinput : Doubles exampleFractionalInput :=
    doubles_exampleInput _ ⟨hfraction, trivial, trivial, trivial⟩
  have hlimit : examplePolicy.resources.Convertible := ⟨fun _ => by decide, by decide, by decide⟩
  have hlimit' : exampleFractional.resources.Convertible :=
    ⟨fun h => absurd h (by decide), by decide, by decide⟩
  have hscalar : examplePolicy.ScalarDestinations := by
    intro item hitem
    rcases List.mem_cons.mp hitem with rfl | hitem
    · exact isScalar_str _
    · rw [List.mem_singleton.mp hitem]
      exact isScalar_str _
  obtain ⟨hloads, hspellings⟩ := canonical_policy exactDecimals
  obtain ⟨-, hsame, -⟩ := hspellings exampleSpelling exampleRespelling examplePolicy examplePolicy
    hspelling hrespelling rfl rfl hlimit hlimit
  obtain ⟨-, -, hdistinct⟩ := hspellings exampleSpelling exampleFractionalInput examplePolicy
    exampleFractional hspelling hinput rfl rfl hlimit hlimit'
  refine ⟨⟨_, _, rfl, rfl, (hsame exampleSpelling_alike).2⟩, fun hbytes => ?_,
    hloads exampleFractional (Or.inr hfraction) hlimit'⟩
  have hpolicies := (hdistinct hscalar hscalar).2.mp hbytes
  have hcpu : (4 : Rat) = exampleFraction := congrArg (fun p => p.resources.cpu) hpolicies
  exact absurd hcpu (by decide)

end AgentDev.Policy
