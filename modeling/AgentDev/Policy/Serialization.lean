import AgentDev.Python.JsonCharacters
import AgentDev.Python.Utf8
import AgentDev.Policy.Schema

/-!
# Canonical serialization

`policy/serialization.py`: the canonical JSON text of a policy. The text is read back as the sorted
mapping of the policy, and `from_dict` makes the policy of it (`fromDict_reads`); so the text has
everything that the policy has.
-/

namespace AgentDev.Policy

open Python Python.Json

/-- The arguments of `json.dumps`. -/
def canonicalFormat : Format where
  sortKeys := true
  ensureAscii := false
  allowNan := false

def canonicalPolicyJson (floats : FloatText) (policy : ExecutionPolicy) : Except Json.Error Str :=
  dumps floats canonicalFormat (.dict policy.asDict)

/-- A `UnicodeEncodeError` is a `ValueError`. -/
def canonicalPolicyBytes (floats : FloatText) (policy : ExecutionPolicy) :
    Except Json.Error (List UInt8) := do
  let text ← canonicalPolicyJson floats policy
  match encodeUtf8 text with
  | some bytes => return bytes
  | none => .error .value

/-! ## Sorted records -/

/-- The items of a record as they are read back. -/
def sortedItems (fields : List (String × Value)) : Dict := sortItems (arrangeItems (items fields))

section

variable {fields : List (String × Value)} {names : List Str}

theorem mem_arrangeItems {key : Key} {value : Value} {d : List (Key × Value)}
    (h : (key, value) ∈ d) : (key, arrange value) ∈ arrangeItems d := by
  induction d with
  | nil => cases h
  | cons first rest ih =>
    rcases List.mem_cons.mp h with rfl | hrest
    · exact List.mem_cons_self
    · exact List.mem_cons_of_mem _ (ih hrest)

theorem names_sortedItems (hnames : (items fields).names = names) :
    (sortedItems fields).names.Perm names := by
  rw [← hnames, ← names_arrangeItems (items fields)]
  exact (sortItems_perm _).filterMap _

theorem get?_sortedItems (hnames : (items fields).names = names) (hnodup : names.Nodup)
    {field : String × Value} (hfield : field ∈ fields) :
    (sortedItems fields).get? (str field.1) = some (arrange field.2) := by
  apply Dict.get?_of_mem
  · exact (names_sortedItems hnames).nodup_iff.mpr hnodup
  · rw [sortedItems, (sortItems_perm _).mem_iff]
    exact mem_arrangeItems (List.mem_map.mpr ⟨field, hfield, rfl⟩)

theorem hasNames_sortedItems : (sortedItems fields).hasNames = true := by
  rw [Dict.hasNames, List.all_eq_true]
  intro item hitem
  rw [sortedItems, (sortItems_perm _).mem_iff] at hitem
  obtain ⟨key, value⟩ := item
  have hkeys : ∀ fields : List (String × Value), (key, value) ∈ arrangeItems (items fields) →
      key ≠ .other := by
    intro fields
    induction fields with
    | nil => exact fun h => nomatch h
    | cons field rest ih =>
      intro h
      rcases List.mem_cons.mp h with heq | hrest
      · cases heq
        exact fun hkey => nomatch hkey
      · exact ih hrest
  simpa using hkeys fields hitem

theorem requireFields_of_names {data : Dict} {path : Str} {required optional : List Str}
    (hdata : data.hasNames = true)
    (hknown : ∀ name ∈ data.names, name ∈ required ∨ name ∈ optional)
    (hpresent : ∀ name ∈ required, name ∈ data.names) :
    requireFields (.dict data) path required optional = .ok data := by
  have hunknown : data.names.filter (fun name => name ∉ required ∧ name ∉ optional) = [] := by
    rw [List.filter_eq_nil_iff]
    intro name hname
    simpa using fun hrequired => (hknown name hname).resolve_left hrequired
  have hmissing : required.filter (fun name => name ∉ data.names) = [] := by
    rw [List.filter_eq_nil_iff]
    intro name hname
    simpa using hpresent name hname
  rw [requireFields, requireMapping, if_pos hdata]
  show (if sorted (data.names.filter _) ≠ [] then _ else if sorted (required.filter _) ≠ [] then _
    else Except.ok data) = _
  rw [hunknown, hmissing]
  rfl

/-- The value is read as it is, or as it is read back from its text. -/
def Reads (value read : Value) : Prop := read = value ∨ read = arrange value

/-- A function of a record can rely on the fields of the record. -/
theorem of_record {α : Type} {path : Str} {required optional : List Str}
    {f : Dict → Except Error α} {result : Except Error α} {value : Value}
    (hreads : Reads (record fields) value) (names : List Str)
    (hnames : (items fields).names = names) (hnodup : names.Nodup)
    (hknown : ∀ name ∈ names, name ∈ required ∨ name ∈ optional)
    (hpresent : ∀ name ∈ required, name ∈ names)
    (hf : ∀ data, (∀ field ∈ fields, ∃ read, item data (str field.1) = .ok read ∧
      Reads field.2 read) → f data = result) :
    (requireFields value path required optional >>= f) = result := by
  have hdict : ∃ data : Dict, value = .dict data ∧ data.hasNames = true ∧ data.names.Perm names ∧
      ∀ field ∈ fields, ∃ read, data.get? (str field.1) = some read ∧ Reads field.2 read := by
    rcases hreads with rfl | rfl
    · refine ⟨items fields, rfl, ?_, hnames ▸ .refl _, fun field hfield => ?_⟩
      · rw [Dict.hasNames, items, List.all_map, List.all_eq_true]
        exact fun field _ => rfl
      · have hmem : (Key.str (str field.1), field.2) ∈ items fields :=
          List.mem_map.mpr ⟨field, hfield, rfl⟩
        exact ⟨field.2, Dict.get?_of_mem (hnames ▸ hnodup) hmem, Or.inl rfl⟩
    · exact ⟨sortedItems fields, rfl, hasNames_sortedItems, names_sortedItems hnames,
        fun field hfield => ⟨_, get?_sortedItems hnames hnodup hfield, Or.inr rfl⟩⟩
  obtain ⟨data, rfl, hhas, hperm, hfields⟩ := hdict
  have hdata : requireFields (.dict data) path required optional = .ok data :=
    requireFields_of_names hhas (fun name hname => hknown name (hperm.mem_iff.mp hname))
      (fun name hname => hperm.mem_iff.mpr (hpresent name hname))
  rw [hdata]
  refine hf _ fun field hfield => ?_
  obtain ⟨read, hread, hreads⟩ := hfields field hfield
  exact ⟨read, by rw [item, hread], hreads⟩

/-- A record is written when its fields are. -/
theorem serializable_record (names : List Str) (hnames : (items fields).names = names)
    (hnodup : names.Nodup)
    (hfields : ∀ field ∈ fields, Serializable canonicalFormat field.2) :
    Serializable canonicalFormat (record fields) := by
  refine ⟨by rw [hnames]; exact hnodup, ?_⟩
  rw [itemsSerializable_iff]
  intro item hitem
  obtain ⟨field, hfield, rfl⟩ := List.mem_map.mp hitem
  exact ⟨str field.1, rfl, fun h => (nomatch h), hfields field hfield⟩

end

/-! ## The fields of a policy -/

@[simp]
theorem ok_bind {ε α β : Type} {a : α} {f : α → Except ε β} : (Except.ok a >>= f) = f a := rfl

section

variable {path : Str} {read : Value}

theorem Access.requireChoice_text {a : Access} (h : Reads (.str a.text) read) :
    requireChoice read path choices = .ok a := by
  rcases h with rfl | rfl <;> cases a <;> rfl

theorem ReferenceAccess.requireChoice_text {a : ReferenceAccess} (h : Reads (.str a.text) read) :
    requireChoice read path choices = .ok a := by
  rcases h with rfl | rfl <;> cases a <;> rfl

theorem ExternalAccess.requireChoice_text {a : ExternalAccess} (h : Reads (.str a.text) read) :
    requireChoice read path choices = .ok a := by
  rcases h with rfl | rfl <;> cases a <;> rfl

theorem NetworkMode.requireChoice_text {m : NetworkMode} (h : Reads (.str m.text) read) :
    requireChoice read path choices = .ok m := by
  rcases h with rfl | rfl <;> cases m <;> rfl

theorem Visibility.requireChoice_text {v : Visibility} (h : Reads (.str v.text) read) :
    requireChoice read path choices = .ok v := by
  rcases h with rfl | rfl <;> cases v <;> rfl

theorem SecurityClass.requireChoice_text {c : SecurityClass} (h : Reads (.str c.text) read) :
    requireChoice read path choices = .ok c := by
  rcases h with rfl | rfl <;> cases c <;> rfl

end

/-! ### Destinations -/

theorem checkDestinations_of_nodup {seen rest : List Str} (hnodup : (seen ++ rest).Nodup)
    (hvalid : ∀ item ∈ rest, validDestination item = true) :
    checkDestinations seen (rest.map .str) = .ok (seen ++ rest) := by
  induction rest generalizing seen with
  | nil => simp [checkDestinations]
  | cons item rest ih =>
    have hnew : item ∉ seen := fun hmem =>
      (List.nodup_append.mp hnodup).2.2 item hmem item List.mem_cons_self rfl
    have happend : seen ++ item :: rest = seen ++ [item] ++ rest := by simp
    rw [happend] at hnodup ⊢
    simp only [List.map_cons, checkDestinations, hvalid item List.mem_cons_self, if_neg hnew]
    exact ih hnodup fun other hother => hvalid other (List.mem_cons_of_mem _ hother)

theorem normalizeDestinations_of_check {values : List Value} {result : List Str}
    (h : checkDestinations [] values = .ok result) :
    ∃ destinations, normalizeDestinations (.seq values) = .ok destinations ∧
      destinations.items = sorted result := by
  unfold normalizeDestinations
  simp only []
  split
  · rename_i result' hresult
    cases hresult.symm.trans h
    exact ⟨_, rfl, rfl⟩
  · rename_i error herror
    cases herror.symm.trans h

theorem Destinations.ext_items {d d' : Destinations} (h : d.items = d'.items) : d = d' := by
  cases d
  cases d'
  cases h
  rfl

theorem arrangeAll_str (strings : List Str) :
    arrangeAll (strings.map .str) = strings.map .str := by
  induction strings with
  | nil => rfl
  | cons s rest ih => exact congrArg (.str s :: ·) ih

theorem normalizeDestinations_reads {d : Destinations} {read : Value}
    (h : Reads (.seq (d.items.map .str)) read) : normalizeDestinations read = .ok d := by
  have hread : read = .seq (d.items.map .str) := by
    rcases h with rfl | rfl
    · rfl
    · rw [arrange, arrangeAll_str]
  have hnodup : d.items.Nodup := d.sorted.imp fun h => ne_of_lt h
  have hcheck : checkDestinations [] (d.items.map .str) = .ok d.items :=
    checkDestinations_of_nodup hnodup d.valid
  obtain ⟨destinations, hok, hitems⟩ := normalizeDestinations_of_check hcheck
  have hsorted : Python.sorted d.items = d.items :=
    (d.sorted.imp fun h => le_of_lt h).insertionSort_eq
  have heq : destinations = d := Destinations.ext_items (hitems.trans hsorted)
  rw [hread, hok, heq]

/-! ### Limits -/

theorem normalizeCpu_reads {cpu : Rat} {read : Value} (hreads : Reads (cpuValue cpu) read)
    (h : 0 < cpu) : normalizeCpu read = .ok ⟨cpu, h⟩ := by
  have hread : read = cpuValue cpu := by
    rcases hreads with rfl | rfl
    · rfl
    · unfold cpuValue
      split <;> rfl
  rw [hread, cpuValue]
  split
  · rename_i hden
    have heq : ((cpu.num : Int) : Rat) = cpu := Rat.den_eq_one_iff cpu |>.mp hden
    have hpos : 0 < cpu.num := Rat.num_pos.mpr h
    have hok : normalizeCpu (.int cpu.num) = .ok ⟨(cpu.num : Rat), by exact_mod_cast hpos⟩ :=
      dif_pos hpos
    exact hok.trans (congrArg Except.ok (Subtype.ext heq))
  · exact dif_pos h

theorem Reads.int_eq {n : Int} {read : Value} (h : Reads (.int n) read) : read = .int n := by
  rcases h with rfl | rfl <;> rfl

theorem Reads.bool_eq {b : Bool} {read : Value} (h : Reads (.bool b) read) : read = .bool b := by
  rcases h with rfl | rfl <;> rfl

/-! ## The round trip -/

section

variable {value : Value}

theorem WorkspacePolicy.fromDict_reads {p : WorkspacePolicy} (h : Reads p.asDict value) :
    fromDict value = .ok p := by
  refine of_record h [str "access"] rfl (by decide) (by decide) (by decide) fun data hitems => ?_
  obtain ⟨⟨_, hitem, haccess⟩, -⟩ := List.forall_mem_cons.mp hitems
  rw [hitem]
  simp only [ok_bind, Access.requireChoice_text haccess]
  rfl

theorem ReferencePolicy.fromDict_reads {p : ReferencePolicy} (h : Reads p.asDict value) :
    fromDict value = .ok p := by
  refine of_record h [str "access"] rfl (by decide) (by decide) (by decide) fun data hitems => ?_
  obtain ⟨⟨_, hitem, haccess⟩, -⟩ := List.forall_mem_cons.mp hitems
  rw [hitem]
  simp only [ok_bind, ReferenceAccess.requireChoice_text haccess]
  rfl

theorem FilesystemPolicy.fromDict_reads {p : FilesystemPolicy} (h : Reads p.asDict value) :
    fromDict value = .ok p := by
  refine of_record h [str "external"] rfl (by decide) (by decide) (by decide) fun data hitems => ?_
  obtain ⟨⟨_, hitem, hexternal⟩, -⟩ := List.forall_mem_cons.mp hitems
  rw [hitem]
  simp only [ok_bind, ExternalAccess.requireChoice_text hexternal]
  rfl

theorem TaskShellNetworkPolicy.make_self (p : TaskShellNetworkPolicy) :
    make p.mode p.destinations = .ok p := by
  unfold make
  split
  · rename_i hmode
    rw [dif_neg (p.listed.mp hmode)]
  · rename_i hmode
    have hnone : p.destinations.items = [] := by
      by_contra hsome
      exact hmode (p.listed.mpr hsome)
    rw [dif_pos hnone]

theorem TaskShellNetworkPolicy.fromDict_reads {p : TaskShellNetworkPolicy}
    (h : Reads p.asDict value) : fromDict value = .ok p := by
  refine of_record h [str "mode", str "destinations"] rfl (by decide) (by decide) (by decide)
    fun data hitems => ?_
  obtain ⟨⟨_, hitem, hmode⟩, hitems⟩ := List.forall_mem_cons.mp hitems
  obtain ⟨⟨_, hitem', hdestinations⟩, -⟩ := List.forall_mem_cons.mp hitems
  rw [hitem, item_ok hitem']
  simp only [ok_bind, NetworkMode.requireChoice_text hmode, Option.getD_some,
    normalizeDestinations_reads hdestinations, make_self]

theorem NetworkPolicy.fromDict_reads {p : NetworkPolicy} (h : Reads p.asDict value) :
    fromDict value = .ok p := by
  refine of_record h [str "task_shell"] rfl (by decide) (by decide) (by decide) fun data hitems => ?_
  obtain ⟨⟨_, hitem, htaskShell⟩, -⟩ := List.forall_mem_cons.mp hitems
  rw [hitem]
  simp only [ok_bind, TaskShellNetworkPolicy.fromDict_reads htaskShell]
  rfl

theorem ProviderAuthPolicy.fromDict_reads {p : ProviderAuthPolicy} (h : Reads p.asDict value) :
    fromDict value = .ok p := by
  refine of_record h [str "task_shell"] rfl (by decide) (by decide) (by decide) fun data hitems => ?_
  obtain ⟨⟨_, hitem, htaskShell⟩, -⟩ := List.forall_mem_cons.mp hitems
  rw [hitem]
  simp only [ok_bind, Visibility.requireChoice_text htaskShell]
  rfl

theorem CredentialsPolicy.fromDict_reads {p : CredentialsPolicy} (h : Reads p.asDict value) :
    fromDict value = .ok p := by
  refine of_record h [str "provider_auth"] rfl (by decide) (by decide) (by decide)
    fun data hitems => ?_
  obtain ⟨⟨_, hitem, hproviderAuth⟩, -⟩ := List.forall_mem_cons.mp hitems
  rw [hitem]
  simp only [ok_bind, ProviderAuthPolicy.fromDict_reads hproviderAuth]
  rfl

theorem GitPolicy.fromDict_reads {p : GitPolicy} (h : Reads p.asDict value) :
    fromDict value = .ok p := by
  refine of_record h [str "read", str "commit", str "push"] rfl (by decide) (by decide) (by decide)
    fun data hitems => ?_
  obtain ⟨⟨_, hread, hreads⟩, hitems⟩ := List.forall_mem_cons.mp hitems
  obtain ⟨⟨_, hcommit, hreads'⟩, hitems⟩ := List.forall_mem_cons.mp hitems
  obtain ⟨⟨_, hpush, hreads''⟩, -⟩ := List.forall_mem_cons.mp hitems
  rw [hread, hcommit, hpush, hreads.bool_eq, hreads'.bool_eq, hreads''.bool_eq]
  rfl

theorem SandboxPolicy.fromDict_reads {p : SandboxPolicy} (h : Reads p.asDict value) :
    fromDict value = .ok p := by
  refine of_record h [str "required"] rfl (by decide) (by decide) (by decide) fun data hitems => ?_
  obtain ⟨⟨_, hrequired, hreads⟩, -⟩ := List.forall_mem_cons.mp hitems
  rw [hrequired, hreads.bool_eq]
  rfl

theorem PolicyResourceLimits.fromDict_reads {p : PolicyResourceLimits} (h : Reads p.asDict value) :
    fromDict value = .ok p := by
  refine of_record h [str "cpu", str "memory", str "pids"] rfl (by decide) (by decide) (by decide)
    fun data hitems => ?_
  obtain ⟨⟨_, hcpu, hreads⟩, hitems⟩ := List.forall_mem_cons.mp hitems
  obtain ⟨⟨_, hmemory, hreads'⟩, hitems⟩ := List.forall_mem_cons.mp hitems
  obtain ⟨⟨_, hpids, hreads''⟩, -⟩ := List.forall_mem_cons.mp hitems
  have hbytes : ∀ path, requirePositiveInt (.int p.memoryBytes) path =
      .ok ⟨p.memoryBytes, p.memoryBytes_pos⟩ := fun path => dif_pos p.memoryBytes_pos
  have hpids' : ∀ path, requirePositiveInt (.int p.pids) path = .ok ⟨p.pids, p.pids_pos⟩ :=
    fun path => dif_pos p.pids_pos
  have hmemory' : normalizeMemory (.int p.memoryBytes) = .ok p.memoryBytes :=
    if_pos p.memoryBytes_pos
  rw [hcpu, hmemory, hpids, hreads'.int_eq, hreads''.int_eq]
  simp only [ok_bind, normalizeCpu_reads hreads p.cpu_pos, hmemory', hpids', hbytes]
  rfl

/-- A policy is made of its mapping, and of what is read back of it. -/
theorem ExecutionPolicy.fromDict_reads {p : ExecutionPolicy} (h : Reads (.dict p.asDict) value) :
    fromDict value = .ok p := by
  refine of_record h fields rfl (by decide) (by decide) (by decide) fun data hitems => ?_
  obtain ⟨⟨_, hversion, hreads⟩, hitems⟩ := List.forall_mem_cons.mp hitems
  obtain ⟨⟨_, hworkspace, hreads₁⟩, hitems⟩ := List.forall_mem_cons.mp hitems
  obtain ⟨⟨_, hreference, hreads₂⟩, hitems⟩ := List.forall_mem_cons.mp hitems
  obtain ⟨⟨_, hfilesystem, hreads₃⟩, hitems⟩ := List.forall_mem_cons.mp hitems
  obtain ⟨⟨_, hnetwork, hreads₄⟩, hitems⟩ := List.forall_mem_cons.mp hitems
  obtain ⟨⟨_, hcredentials, hreads₅⟩, hitems⟩ := List.forall_mem_cons.mp hitems
  obtain ⟨⟨_, hgit, hreads₆⟩, hitems⟩ := List.forall_mem_cons.mp hitems
  obtain ⟨⟨_, hsandbox, hreads₇⟩, hitems⟩ := List.forall_mem_cons.mp hitems
  obtain ⟨⟨_, hresources, hreads₈⟩, hitems⟩ := List.forall_mem_cons.mp hitems
  obtain ⟨⟨_, hsecurityClass, hreads₉⟩, -⟩ := List.forall_mem_cons.mp hitems
  have hversion' : requireVersion (.int p.version) = .ok ⟨p.version, p.version_eq⟩ :=
    dif_pos p.version_eq
  rw [hversion, hworkspace, hreference, hfilesystem, hnetwork, hcredentials, hgit, hsandbox,
    hresources, hsecurityClass, hreads.int_eq]
  simp only [ok_bind, hversion', WorkspacePolicy.fromDict_reads hreads₁,
    ReferencePolicy.fromDict_reads hreads₂, FilesystemPolicy.fromDict_reads hreads₃,
    NetworkPolicy.fromDict_reads hreads₄, CredentialsPolicy.fromDict_reads hreads₅,
    GitPolicy.fromDict_reads hreads₆, SandboxPolicy.fromDict_reads hreads₇,
    PolicyResourceLimits.fromDict_reads hreads₈, SecurityClass.requireChoice_text hreads₉]
  rfl

end

/-! ## Policies that can be written -/

/-- The number has a decimal numeral that `int` and `str` convert. -/
def Convertible (n : Int) : Prop := (natRepr n.natAbs).length ≤ Python.maxStrDigits

instance (n : Int) : Decidable (Convertible n) := inferInstanceAs (Decidable (_ ≤ _))

/-- The number of CPUs is one that `_normalize_cpu` returns, an integer or a `float`. -/
def PolicyResourceLimits.Representable (p : PolicyResourceLimits) : Prop :=
  p.cpu.den = 1 ∨ IsDouble p.cpu

structure PolicyResourceLimits.Convertible (p : PolicyResourceLimits) : Prop where
  cpu : p.cpu.den = 1 → Policy.Convertible p.cpu.num
  memory : Policy.Convertible p.memoryBytes
  pids : Policy.Convertible p.pids

theorem serializable_str (s : Str) : Serializable canonicalFormat (.str s) := fun h => nomatch h

theorem serializable_cpu {p : PolicyResourceLimits} (h : p.Representable) (hlimit : p.Convertible) :
    Serializable canonicalFormat (cpuValue p.cpu) := by
  unfold cpuValue
  split
  · rename_i hden
    exact hlimit.cpu hden
  · rename_i hden
    exact h.resolve_left hden

theorem allSerializable_str (strings : List Str) :
    AllSerializable canonicalFormat (strings.map .str) := by
  induction strings with
  | nil => trivial
  | cons s rest ih => exact ⟨serializable_str s, ih⟩

theorem PolicyResourceLimits.serializable {p : PolicyResourceLimits} (h : p.Representable)
    (hlimit : p.Convertible) : Serializable canonicalFormat p.asDict := by
  refine serializable_record [str "cpu", str "memory", str "pids"] rfl (by decide) ?_
  simp only [List.forall_mem_cons]
  exact ⟨serializable_cpu h hlimit, hlimit.memory, hlimit.pids, fun _ hfield => nomatch hfield⟩

theorem TaskShellNetworkPolicy.serializable (p : TaskShellNetworkPolicy) :
    Serializable canonicalFormat p.asDict := by
  refine serializable_record [str "mode", str "destinations"] rfl (by decide) ?_
  simp only [List.forall_mem_cons]
  exact ⟨serializable_str _, allSerializable_str _, fun _ hfield => nomatch hfield⟩

theorem GitPolicy.serializable (p : GitPolicy) : Serializable canonicalFormat p.asDict := by
  refine serializable_record [str "read", str "commit", str "push"] rfl (by decide) ?_
  simp only [List.forall_mem_cons]
  exact ⟨trivial, trivial, trivial, fun _ hfield => nomatch hfield⟩

/-- A record with one field. -/
theorem serializable_single {name : String} {value : Value}
    (h : Serializable canonicalFormat value) :
    Serializable canonicalFormat (record [(name, value)]) := by
  refine serializable_record [str name] rfl (List.nodup_singleton _) ?_
  simp only [List.forall_mem_cons]
  exact ⟨h, fun _ hfield => nomatch hfield⟩

theorem serializable_version {n : Int} (h : n = policyVersion) :
    Serializable canonicalFormat (.int n) := by
  rw [h]
  show (natRepr 1).length ≤ Python.maxStrDigits
  decide

theorem ExecutionPolicy.serializable {p : ExecutionPolicy} (h : p.resources.Representable)
    (hlimit : p.resources.Convertible) : Serializable canonicalFormat (.dict p.asDict) := by
  refine serializable_record fields rfl (by decide) ?_
  simp only [List.forall_mem_cons]
  exact ⟨serializable_version p.version_eq, serializable_single (serializable_str _),
    serializable_single (serializable_str _), serializable_single (serializable_str _),
    serializable_single p.network.taskShell.serializable,
    serializable_single (serializable_single (serializable_str _)), p.git.serializable,
    serializable_single trivial, PolicyResourceLimits.serializable h hlimit, serializable_str _,
    fun _ hfield => nomatch hfield⟩

/-- The canonical text of a policy exists and determines the policy. -/
theorem canonicalPolicyJson_loads {floats : FloatText} {p : ExecutionPolicy}
    (h : p.resources.Representable) (hlimit : p.resources.Convertible) :
    ∃ text value, canonicalPolicyJson floats p = .ok text ∧ loads floats text = .ok value ∧
      ExecutionPolicy.fromDict value = .ok p := by
  obtain ⟨text, htext, hloads⟩ := dumps_loads (ExecutionPolicy.serializable h hlimit)
  exact ⟨text, arrange (.dict p.asDict), htext, hloads,
    ExecutionPolicy.fromDict_reads (Or.inr rfl)⟩

/-! ## Bytes -/

/-- All strings in the value can be encoded. -/
def Scalar (value : Value) : Prop := ∀ s ∈ strings value, ∀ c ∈ s, IsScalar c

theorem scalar_record {fields : List (String × Value)} (h : ∀ field ∈ fields, Scalar field.2) :
    Scalar (record fields) := by
  intro s hs
  obtain ⟨item, hitem, hs⟩ := mem_stringsItems.mp hs
  obtain ⟨field, hfield, rfl⟩ := List.mem_map.mp hitem
  rcases hs with rfl | hs
  · exact isScalar_str field.1
  · exact h field hfield s hs

theorem scalar_single {name : String} {value : Value} (h : Scalar value) :
    Scalar (record [(name, value)]) := by
  refine scalar_record ?_
  simp only [List.forall_mem_cons]
  exact ⟨h, fun _ hfield => nomatch hfield⟩

theorem scalar_str {s : Str} (h : ∀ c ∈ s, IsScalar c) : Scalar (.str s) := by
  intro s' hs'
  rw [List.mem_singleton.mp hs']
  exact h

theorem Access.scalar (a : Access) : Scalar (.str a.text) := by
  cases a <;> exact scalar_str (isScalar_str _)

theorem ReferenceAccess.scalar (a : ReferenceAccess) : Scalar (.str a.text) := by
  cases a <;> exact scalar_str (isScalar_str _)

theorem ExternalAccess.scalar (a : ExternalAccess) : Scalar (.str a.text) := by
  cases a <;> exact scalar_str (isScalar_str _)

theorem NetworkMode.scalar (m : NetworkMode) : Scalar (.str m.text) := by
  cases m <;> exact scalar_str (isScalar_str _)

theorem Visibility.scalar (v : Visibility) : Scalar (.str v.text) := by
  cases v <;> exact scalar_str (isScalar_str _)

theorem SecurityClass.scalar (c : SecurityClass) : Scalar (.str c.text) := by
  cases c <;> exact scalar_str (isScalar_str _)

theorem scalar_of_strings_nil {value : Value} (h : strings value = []) : Scalar value := by
  intro s hs
  rw [h] at hs
  cases hs

/-- All destinations can be encoded. -/
def ExecutionPolicy.ScalarDestinations (p : ExecutionPolicy) : Prop :=
  ∀ item ∈ p.network.taskShell.destinations.items, ∀ c ∈ item, IsScalar c

theorem TaskShellNetworkPolicy.scalar {p : TaskShellNetworkPolicy}
    (h : ∀ item ∈ p.destinations.items, ∀ c ∈ item, IsScalar c) : Scalar p.asDict := by
  refine scalar_record ?_
  simp only [List.forall_mem_cons]
  refine ⟨p.mode.scalar, fun s hs => ?_, fun _ hfield => nomatch hfield⟩
  obtain ⟨value, hvalue, hs⟩ := mem_stringsAll.mp hs
  obtain ⟨item, hitem, rfl⟩ := List.mem_map.mp hvalue
  rw [List.mem_singleton.mp hs]
  exact h item hitem

theorem scalar_cpu (cpu : Rat) : Scalar (cpuValue cpu) := by
  unfold cpuValue
  split <;> exact scalar_of_strings_nil rfl

theorem PolicyResourceLimits.scalar (p : PolicyResourceLimits) : Scalar p.asDict := by
  refine scalar_record ?_
  simp only [List.forall_mem_cons]
  exact ⟨scalar_cpu p.cpu, scalar_of_strings_nil rfl, scalar_of_strings_nil rfl,
    fun _ hfield => nomatch hfield⟩

theorem GitPolicy.scalar (p : GitPolicy) : Scalar p.asDict := by
  refine scalar_record ?_
  simp only [List.forall_mem_cons]
  exact ⟨scalar_of_strings_nil rfl, scalar_of_strings_nil rfl, scalar_of_strings_nil rfl,
    fun _ hfield => nomatch hfield⟩

theorem ExecutionPolicy.scalar {p : ExecutionPolicy} (h : p.ScalarDestinations) :
    Scalar (.dict p.asDict) := by
  refine scalar_record ?_
  simp only [List.forall_mem_cons]
  exact ⟨scalar_of_strings_nil rfl, scalar_single p.workspace.access.scalar,
    scalar_single p.reference.access.scalar, scalar_single p.filesystem.external.scalar,
    scalar_single (TaskShellNetworkPolicy.scalar h),
    scalar_single (scalar_single p.credentials.providerAuth.taskShell.scalar), p.git.scalar,
    scalar_single (scalar_of_strings_nil rfl), p.resources.scalar, p.securityClass.scalar,
    fun _ hfield => nomatch hfield⟩

/-- The bytes of a policy are those of its canonical text. -/
theorem canonicalPolicyBytes_eq {floats : FloatText} {p : ExecutionPolicy} {text : Str}
    (h : p.resources.Representable) (hlimit : p.resources.Convertible)
    (hscalar : p.ScalarDestinations) (htext : canonicalPolicyJson floats p = .ok text) :
    ∃ bytes, encodeUtf8 text = some bytes ∧ canonicalPolicyBytes floats p = .ok bytes := by
  have hall : ∀ c ∈ text, IsScalar c := by
    intro c hc
    rcases mem_dumps htext (ExecutionPolicy.serializable h hlimit) c hc with hplain | ⟨-, s, hs, hc⟩
    · have hlt : c.val < 128 := hplain.2
      exact Or.inl (by omega)
    · exact ExecutionPolicy.scalar hscalar s hs c hc
  have hencode := encodeUtf8_of_scalar hall
  refine ⟨_, hencode, ?_⟩
  rw [canonicalPolicyBytes, htext]
  simp only [ok_bind, hencode]
  rfl

end AgentDev.Policy
