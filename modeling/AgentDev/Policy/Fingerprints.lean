import AgentDev.Policy.Inheritance
import AgentDev.Policy.Spellings
import AgentDev.Python.JsonLines
import AgentDev.Python.JsonReading
import AgentDev.Python.Surrogates

/-!
# Fingerprints of policies

`policy_hash` of `policy/serialization.py`. A policy that comes from parsed JSON, by itself or through
layers, has canonical bytes if and only if its destinations have no surrogates and its memory limit
has not too many digits (`canonicalPolicyBytes_ok_iff`): the schema accepts both.
-/

namespace AgentDev.Policy

open Python
open Python.Json hiding Unit

/-- `policy_hash`; `hexdigest` is that of SHA-256. -/
def policyHash (floats : FloatText) (hexdigest : List UInt8 → Str) (policy : ExecutionPolicy) :
    Except Json.Error Str := do
  return str "sha256:" ++ hexdigest (← canonicalPolicyBytes floats policy)

/-! ## Limits from parsed JSON -/

/-- The number of CPUs and the number of processes can be written. -/
structure PolicyResourceLimits.Portable (p : PolicyResourceLimits) : Prop where
  representable : p.Representable
  cpu : p.cpu.den = 1 → Policy.Convertible p.cpu.num
  pids : Policy.Convertible p.pids

theorem convertible_iff {n : Int} : Convertible n ↔ n.natAbs < 10 ^ Python.maxStrDigits :=
  length_natRepr_le (by decide)

theorem normalizeCpu_portable {value : Value} {cpu : { q : Rat // 0 < q }}
    (h : normalizeCpu value = .ok cpu) (hvalue : Serializable looseFormat value) :
    (cpu.val.den = 1 ∨ IsDouble cpu.val) ∧ (cpu.val.den = 1 → Convertible cpu.val.num) := by
  have hnumber := normalizeCpu_ok h
  cases value with
  | int n =>
    have hcpu : (n : Rat) = cpu.val := Option.some.inj hnumber
    rw [← hcpu]
    exact ⟨Or.inl (Rat.den_intCast n), fun _ => hvalue⟩
  | float x =>
    cases x with
    | finite q =>
      have hcpu : q = cpu.val := Option.some.inj hnumber
      rw [← hcpu]
      exact ⟨Or.inr hvalue, fun hden => convertible_iff.mpr (natAbs_num_lt hvalue hden)⟩
    | _ => cases hnumber
  | _ => cases hnumber

theorem requirePositiveInt_convertible {value : Value} {path : Str} {n : { n : Int // 0 < n }}
    (h : requirePositiveInt value path = .ok n) (hvalue : Serializable looseFormat value) :
    Convertible n.val := by
  cases value with
  | int m =>
    simp only [requirePositiveInt] at h
    split at h
    · cases h
      exact hvalue
    · cases h
  | _ => cases h

theorem serializable_item {value value' : Value} {path name : Str} {required optional : List Str}
    {data : Dict} (h : Serializable looseFormat value)
    (hdata : requireFields value path required optional = .ok data)
    (hvalue : item data name = .ok value') : Serializable looseFormat value' := by
  obtain ⟨rfl, -⟩ := requireFields_ok hdata
  exact serializable_get? h (item_ok hvalue)

theorem serializable_stated {value result : Value} {path : List Key}
    (h : Serializable looseFormat value) (hresult : stated value path = some result) :
    Serializable looseFormat result := by
  induction path generalizing value with
  | nil =>
    cases value <;> cases hresult <;> exact h
  | cons key rest ih =>
    cases value with
    | dict items =>
      rw [stated] at hresult
      split at hresult
      · rename_i next hnext
        obtain ⟨before, after, rfl, -⟩ := List.lookup_eq_some_iff.mp hnext
        obtain ⟨-, -, -, hvalue⟩ := itemsSerializable_iff.mp h.2 (key, next) (by simp)
        exact ih hvalue hresult
      · cases hresult
    | _ => cases hresult

theorem map_val_ok {α : Type} {P : α → Prop} {x : Except Error { a : α // P a }} {a : α}
    (h : Subtype.val <$> x = .ok a) : ∃ b, x = .ok b ∧ b.val = a := by
  cases x with
  | error error => cases h
  | ok b =>
    cases h
    exact ⟨b, rfl, rfl⟩

/-- A policy that is made of parsed JSON. -/
theorem portable_of_fromDict {value : Value} {p : ExecutionPolicy}
    (h : ExecutionPolicy.fromDict value = .ok p) (hvalue : Serializable looseFormat value) :
    p.resources.Portable := by
  simp only [ExecutionPolicy.fromDict, bind_ok_iff] at h
  obtain ⟨data, hdata, _, -, version, -, _, -, workspace, -, _, -, reference, -, _, -, filesystem, -,
    _, -, network, -, _, -, credentials, -, _, -, git, -, _, -, sandbox, -, limits, hitem, resources,
    hresources, _, -, securityClass, -, hp⟩ := h
  cases hp
  have hlimits : Serializable looseFormat limits := serializable_item hvalue hdata hitem
  simp only [PolicyResourceLimits.fromDict, bind_ok_iff] at hresources
  obtain ⟨data', hdata', _, hcpuItem, cpu, hcpu, _, -, memory, -, _, hpidsItem, pids, hpids, bytes, -,
    hp⟩ := hresources
  cases hp
  obtain ⟨hrepresentable, hconvertible⟩ :=
    normalizeCpu_portable hcpu (serializable_item hlimits hdata' hcpuItem)
  exact ⟨hrepresentable, hconvertible,
    requirePositiveInt_convertible hpids (serializable_item hlimits hdata' hpidsItem)⟩

/-- A layer that is parsed JSON. -/
theorem portable_applyLayer {effective p : ExecutionPolicy} {name : Str} {layer : Option Value}
    (hlayer : ∀ value ∈ layer, Serializable looseFormat value)
    (h : applyLayer effective name layer = .ok p) (heffective : effective.resources.Portable) :
    p.resources.Portable := by
  cases layer with
  | none =>
    cases h
    exact heffective
  | some value =>
    have hvalue := hlayer value rfl
    obtain ⟨-, hfrom⟩ := applyLayer_overlaid h
    have hrestated := ExecutionPolicy.restated (distinct_of_serializable value hvalue) hfrom
    have hcpu : (p.resources.cpu.den = 1 ∨ IsDouble p.resources.cpu) ∧
        (p.resources.cpu.den = 1 → Convertible p.resources.cpu.num) := by
      have h := hrestated .cpu
      cases hstated : stated value Leaf.cpu.path with
      | none =>
        rw [hstated] at h
        have hsame : p.resources.cpu = effective.resources.cpu := h
        rw [hsame]
        exact ⟨heffective.representable, heffective.cpu⟩
      | some cpu =>
        rw [hstated] at h
        obtain ⟨result, hresult, hval⟩ := map_val_ok h
        have hsame : result.val = p.resources.cpu := hval
        rw [← hsame]
        exact normalizeCpu_portable hresult (serializable_stated hvalue hstated)
    have hpids : Convertible p.resources.pids := by
      have h := hrestated .pids
      cases hstated : stated value Leaf.pids.path with
      | none =>
        rw [hstated] at h
        have hsame : p.resources.pids = effective.resources.pids := h
        rw [hsame]
        exact heffective.pids
      | some pids =>
        rw [hstated] at h
        obtain ⟨result, hresult, hval⟩ := map_val_ok h
        have hsame : result.val = p.resources.pids := hval
        rw [← hsame]
        exact requirePositiveInt_convertible hresult (serializable_stated hvalue hstated)
    exact ⟨hcpu.1, hcpu.2, hpids⟩

/-- The policies that a resolver derives. -/
theorem portable_resolve {baseline p : ExecutionPolicy} {project profile run : Option Value}
    (h : resolve baseline project profile run = .ok p) (hbaseline : baseline.resources.Portable)
    (hproject : ∀ value ∈ project, Serializable looseFormat value)
    (hprofile : ∀ value ∈ profile, Serializable looseFormat value)
    (hrun : ∀ value ∈ run, Serializable looseFormat value) : p.resources.Portable := by
  obtain ⟨first, hfirst, h⟩ := bind_ok_iff.mp h
  obtain ⟨second, hsecond, h⟩ := bind_ok_iff.mp h
  have hfirst' := portable_applyLayer hproject hfirst hbaseline
  have hsecond' := portable_applyLayer hprofile hsecond hfirst'
  exact portable_applyLayer hrun h hsecond'

/-! ## Bytes -/

/-- The destinations have no surrogates, and the memory limit has not too many digits. -/
structure ExecutionPolicy.Encodable (p : ExecutionPolicy) : Prop where
  destinations : p.ScalarDestinations
  memory : Convertible p.resources.memoryBytes

section

variable {floats : FloatText} {format : Format}

theorem join_subset {sep part : Str} : ∀ {parts : List Str}, part ∈ parts → part ⊆ join sep parts
  | [], h => absurd h List.not_mem_nil
  | [_], h => by
    rw [List.mem_singleton.mp h]
    exact List.Subset.refl _
  | first :: second :: parts, h => by
    rw [join_cons_cons]
    rcases List.mem_cons.mp h with rfl | h
    · exact fun c hc => List.mem_append_left _ (List.mem_append_left _ hc)
    · exact fun c hc => List.mem_append_right _ (join_subset h hc)

theorem writeItems_mem {items : List (Key × Value)} {texts : List Str}
    (h : writeItems floats format items = .ok texts) {name : Str} {value : Value}
    (hitem : (Key.str name, value) ∈ items) :
    ∃ text ∈ texts, ∃ text', write floats format value = .ok text' ∧ text' ⊆ text := by
  induction items generalizing texts with
  | nil => cases hitem
  | cons first rest ih =>
    obtain ⟨key, firstValue⟩ := first
    cases key with
    | other => cases h
    | str firstName =>
      obtain ⟨text, texts', htext, htexts', rfl⟩ := writeItems_cons h
      rcases List.mem_cons.mp hitem with hfirst | hrest
      · cases hfirst
        refine ⟨_, List.mem_cons_self, text, htext, ?_⟩
        exact fun c hc => List.mem_append_right _ (List.mem_cons_of_mem _ hc)
      · obtain ⟨other, hother, htext'⟩ := ih htexts' hrest
        exact ⟨other, List.mem_cons_of_mem _ hother, htext'⟩

/-- The values of a mapping that has been written have been written. -/
theorem write_dict_ok {items : Dict} {text : Str} (h : write floats format (.dict items) = .ok text)
    {name : Str} {value : Value} (hitem : (Key.str name, value) ∈ items) :
    ∃ text', write floats format value = .ok text' ∧ text' ⊆ text := by
  obtain ⟨texts, htexts, htext⟩ := bind_ok h
  cases htext
  obtain ⟨whole, hwhole, text', htext', hsubset⟩ := writeItems_mem htexts hitem
  refine ⟨text', htext', ?_⟩
  exact fun c hc => List.mem_cons_of_mem _ (List.mem_append_left _ (join_subset hwhole (hsubset hc)))

theorem writeAll_mem {values : List Value} {texts : List Str}
    (h : writeAll floats format values = .ok texts) {value : Value} (hvalue : value ∈ values) :
    ∃ text ∈ texts, write floats format value = .ok text := by
  induction values generalizing texts with
  | nil => cases hvalue
  | cons first rest ih =>
    obtain ⟨text, texts', htext, htexts', rfl⟩ := writeAll_cons h
    rcases List.mem_cons.mp hvalue with rfl | hrest
    · exact ⟨text, List.mem_cons_self, htext⟩
    · obtain ⟨other, hother, htext'⟩ := ih htexts' hrest
      exact ⟨other, List.mem_cons_of_mem _ hother, htext'⟩

theorem write_seq_ok {values : List Value} {text : Str}
    (h : write floats format (.seq values) = .ok text) {value : Value} (hvalue : value ∈ values) :
    ∃ text', write floats format value = .ok text' ∧ text' ⊆ text := by
  obtain ⟨texts, htexts, htext⟩ := bind_ok h
  cases htext
  obtain ⟨text', hmem, htext'⟩ := writeAll_mem htexts hvalue
  refine ⟨text', htext', ?_⟩
  exact fun c hc => List.mem_cons_of_mem _ (List.mem_append_left _ (join_subset hmem hc))

/-- A field of a sorted record that has been written. -/
theorem write_record_ok {fields : List (String × Value)} {text : Str}
    (h : write floats format (arrange (record fields)) = .ok text) (name : String) {value : Value}
    (hfield : (name, value) ∈ fields) :
    ∃ text', write floats format (arrange value) = .ok text' ∧ text' ⊆ text := by
  apply write_dict_ok h
  · exact (sortItems_perm _).mem_iff.mpr
      (mem_arrangeItems (List.mem_map.mpr ⟨(name, value), hfield, rfl⟩))

/-- A surrogate in a string is a character of the text. -/
theorem mem_writeStr_of_surrogate {s : Str} {c : CodePoint} (hc : c ∈ s) (h : ¬IsScalar c) :
    c ∈ writeStr false s := by
  have hrange : 0xD800 ≤ c.val ∧ c.val ≤ 0xDFFF := by
    unfold IsScalar at h
    omega
  have hescape : escapeChar false c = [c] := by
    rw [escapeChar, lookup_shortEscapes (by omega)]
    exact if_neg (by simp; omega)
  refine List.mem_cons_of_mem _ (List.mem_append_left _ (List.mem_flatMap.mpr ⟨c, hc, ?_⟩))
  rw [hescape]
  exact List.mem_singleton.mpr rfl

end

section

variable {floats : FloatText} {p : ExecutionPolicy}

/-- What can be written and encoded is encodable. -/
theorem encodable_of_ok {bytes : List UInt8} (h : canonicalPolicyBytes floats p = .ok bytes) :
    p.Encodable := by
  obtain ⟨text, htext, h⟩ := bind_ok h
  have htext : write floats canonicalFormat (arrange (.dict p.asDict)) = .ok text := htext
  constructor
  · intro destination hdestination c hc
    by_contra hsurrogate
    obtain ⟨network, hnetwork, hinText⟩ :
        ∃ network, write floats canonicalFormat (arrange p.network.asDict) = .ok network ∧
          network ⊆ text := write_record_ok htext "network" (by simp)
    obtain ⟨shell, hshell, hinNetwork⟩ :
        ∃ shell, write floats canonicalFormat (arrange p.network.taskShell.asDict) = .ok shell ∧
          shell ⊆ network := write_record_ok hnetwork "task_shell" (by simp)
    obtain ⟨list, hlist, hinShell⟩ : ∃ list, write floats canonicalFormat
        (arrange (.seq (p.network.taskShell.destinations.items.map .str))) = .ok list ∧
          list ⊆ shell := write_record_ok hshell "destinations" (by simp)
    rw [arrange, arrangeAll_str] at hlist
    obtain ⟨item, hitem, hinList⟩ := write_seq_ok hlist (List.mem_map_of_mem hdestination)
    cases hitem
    have hmem : c ∈ text :=
      hinText (hinNetwork (hinShell (hinList (mem_writeStr_of_surrogate hc hsurrogate))))
    have hscalar : ∀ c ∈ text, IsScalar c := by
      cases hencode : encodeUtf8 text with
      | none =>
        rw [hencode] at h
        cases h
      | some encoded => exact (encodeUtf8_some hencode).1
    exact hsurrogate (hscalar c hmem)
  · obtain ⟨resources, hresources, -⟩ :
        ∃ resources, write floats canonicalFormat (arrange p.resources.asDict) = .ok resources ∧
          resources ⊆ text := write_record_ok htext "resources" (by simp)
    obtain ⟨memory, hmemory, -⟩ :
        ∃ memory, write floats canonicalFormat (arrange (.int p.resources.memoryBytes)) =
          .ok memory ∧ memory ⊆ resources := write_record_ok hresources "memory" (by simp)
    have hmemory : intRepr p.resources.memoryBytes = .ok memory := hmemory
    by_contra hlong
    rw [intRepr] at hmemory
    cases (if_pos (Nat.not_le.mp hlong)).symm.trans hmemory

theorem ok_of_encodable (floats : FloatText) (h : p.resources.Portable) (hencodable : p.Encodable) :
    ∃ bytes, canonicalPolicyBytes floats p = .ok bytes := by
  have hlimit : p.resources.Convertible := ⟨h.cpu, hencodable.memory, h.pids⟩
  obtain ⟨text, htext⟩ : ∃ text, canonicalPolicyJson floats p = .ok text := by
    obtain ⟨text, -, htext, -⟩ := canonicalPolicyJson_loads h.representable hlimit
    exact ⟨text, htext⟩
  obtain ⟨bytes, -, hbytes⟩ :=
    canonicalPolicyBytes_eq h.representable hlimit hencodable.destinations htext
  exact ⟨bytes, hbytes⟩

/-- `canonical_policy_bytes` and `policy_hash` return values. -/
structure Fingerprinted (floats : FloatText) (hexdigest : List UInt8 → Str) (p : ExecutionPolicy) :
    Prop where
  bytes : ∃ bytes, canonicalPolicyBytes floats p = .ok bytes
  hash : ∃ hash, policyHash floats hexdigest p = .ok hash

theorem fingerprinted_iff {hexdigest : List UInt8 → Str} (h : p.resources.Portable) :
    Fingerprinted floats hexdigest p ↔ p.Encodable := by
  constructor
  · intro hfingerprint
    obtain ⟨bytes, hbytes⟩ := hfingerprint.bytes
    exact encodable_of_ok hbytes
  · intro hencodable
    obtain ⟨bytes, hbytes⟩ := ok_of_encodable floats h hencodable
    refine ⟨⟨bytes, hbytes⟩, str "sha256:" ++ hexdigest bytes, ?_⟩
    rw [policyHash, hbytes]
    rfl

/-- A policy of parsed JSON, and every policy that layers of parsed JSON derive from it, has canonical
bytes and a fingerprint if and only if it is encodable. -/
theorem canonicalPolicyBytes_ok_iff (hexdigest : List UInt8 → Str) (hfloats : floats.ReadsDoubles)
    {text : Str} {value : Value} (hloads : loads floats text = .ok value)
    (hp : ExecutionPolicy.fromDict value = .ok p) :
    (Fingerprinted floats hexdigest p ↔ p.Encodable) ∧
      ∀ (project profile run : Option Value) (p' : ExecutionPolicy),
        (∀ layer ∈ [project, profile, run], ∀ value ∈ layer,
          ∃ text, loads floats text = .ok value) →
        resolve p project profile run = .ok p' →
        (Fingerprinted floats hexdigest p' ↔ p'.Encodable) := by
  have hportable := portable_of_fromDict hp (serializable_loads hfloats hloads)
  refine ⟨fingerprinted_iff hportable, ?_⟩
  intro project profile run p' hlayers hresolve
  have hserializable : ∀ layer ∈ [project, profile, run], ∀ value ∈ layer,
      Serializable looseFormat value := by
    intro layer hlayer value hvalue
    obtain ⟨text, htext⟩ := hlayers layer hlayer value hvalue
    exact serializable_loads hfloats htext
  simp only [List.forall_mem_cons] at hserializable
  obtain ⟨hproject, hprofile, hrun, -⟩ := hserializable
  exact fingerprinted_iff (portable_resolve hresolve hportable hproject hprofile hrun)

end

/-- A policy that allows a destination of one surrogate. -/
def surrogateInput : Value :=
  exampleInput [[chr 0xD800]]
    [("cpu", .int 4), ("memory", .str (str "8g")), ("pids", .int 1024)]

def surrogatePolicy : ExecutionPolicy :=
  { examplePolicy with
    network := ⟨⟨.allowlist, ⟨[[chr 0xD800]], by decide, by decide⟩, by decide⟩⟩ }

theorem fromDict_surrogateInput : ExecutionPolicy.fromDict surrogateInput = .ok surrogatePolicy :=
  rfl

/-- The input is written as ASCII and read back. -/
theorem loads_surrogateInput : ∃ text, dumps doubleDecimals lineFormat surrogateInput = .ok text ∧
    loads doubleDecimals text = .ok surrogateInput := by
  have hserializable : Serializable lineFormat surrogateInput := by
    have hsurrogate : PairFree [chr 0xD800] := List.isChain_singleton _
    simp only [surrogateInput, exampleInput, record, items, List.map, Serializable,
      ItemsSerializable, AllSerializable, pairFree_str, hsurrogate, implies_true, and_true, true_and]
    decide +kernel
  exact dumps_loads hserializable

/-- The policy is accepted, and it has no canonical bytes. -/
theorem surrogatePolicy_raises : ∃ text value, loads doubleDecimals text = .ok value ∧
    ExecutionPolicy.fromDict value = .ok surrogatePolicy ∧
    ¬∃ bytes, canonicalPolicyBytes doubleDecimals surrogatePolicy = .ok bytes := by
  obtain ⟨text, -, hloads⟩ := loads_surrogateInput
  refine ⟨text, surrogateInput, hloads, fromDict_surrogateInput, ?_⟩
  rintro ⟨bytes, hbytes⟩
  have hscalar : IsScalar (chr 0xD800) :=
    (encodable_of_ok hbytes).destinations [chr 0xD800] (by decide) _ (by decide)
  exact absurd hscalar (by decide)

theorem canonicalPolicyBytes_ok_iff_surrogate :
    Fingerprinted doubleDecimals (fun _ => []) surrogatePolicy ↔ surrogatePolicy.Encodable := by
  obtain ⟨text, -, hloads⟩ := loads_surrogateInput
  exact (canonicalPolicyBytes_ok_iff _ doubleDecimals_readsDoubles hloads
    fromDict_surrogateInput).1

end AgentDev.Policy
