import AgentDev.Agents.PolicyCompilers
import AgentDev.Toml.InlineTables

/-!
# Domain tables

The table of domains that Codex gets as `features.network_proxy.domains` is written by the rules of
JSON and read by those of TOML. It is read as the destinations of the policy, each allowed, exactly if
no destination contains the character U+007F (`tomlDomainAllowlist_decodes_iff`).
-/

namespace AgentDev.Agents

open Python Policy Toml

/-! ## Items -/

/-- What is to be read of a table. -/
def allowed (destinations : List Str) : Table := destinations.map fun d => ([d], str "allow")

theorem simpleKey_writeStr {name : Str} (hscalar : ∀ c ∈ name, IsScalar c) (rest : Str) :
    simpleKey (Json.writeStr false name ++ rest) = if delete ∈ name then none else some (name, rest) := by
  have hhead : Json.writeStr false name ++ rest =
      ord '"' :: (name.flatMap (Json.escapeChar false) ++ ord '"' :: rest) := by
    simp [Json.writeStr]
  have hbare : (ord '"' :: (name.flatMap (Json.escapeChar false) ++ ord '"' :: rest)).takeWhile
      isBare = [] := List.takeWhile_cons_of_neg (by decide)
  rw [hhead, simpleKey, if_neg (not_not.mpr hbare), quoted, if_pos rfl]
  exact basicString_writeStr hscalar rest

theorem key_writeStr {name : Str} (hscalar : ∀ c ∈ name, IsScalar c) (fuel : Nat) {rest : Str}
    (hrest : (Toml.skip rest).head? ≠ some (ord '.')) :
    key (fuel + 1) (Json.writeStr false name ++ rest) =
      if delete ∈ name then none else some ([name], rest) := by
  rw [key, simpleKey_writeStr hscalar]
  by_cases hdelete : delete ∈ name
  · rw [if_pos hdelete, if_pos hdelete]
    rfl
  · rw [if_neg hdelete, if_neg hdelete]
    exact if_neg hrest

/-- What is read of an item depends on whether another one follows. -/
theorem items_domainEntry {name : Str} (hscalar : ∀ c ∈ name, IsScalar c) (fuel : Nat) (rest : Str) :
    Toml.items (fuel + 2) (domainEntry name ++ rest) =
      if delete ∈ name then none
      else if (Toml.skip rest).head? = some (ord ',') then
        (Toml.items (fuel + 1) (Toml.skip (Toml.skip rest).tail)).map fun (table, after) =>
          (([name], str "allow") :: table, after)
      else some ([([name], str "allow")], rest) := by
  have hvalue : quoted (str "\"allow\"" ++ rest) = some (str "allow", rest) := rfl
  have hequals : (Toml.skip (str " = \"allow\"" ++ rest)).head? ≠ some (ord '.') :=
    show some (ord '=') ≠ some (ord '.') by decide
  have hkey := key_writeStr hscalar fuel hequals
  rw [domainEntry, List.append_assoc]
  by_cases hdelete : delete ∈ name
  · rw [if_pos hdelete] at hkey ⊢
    rw [Toml.items, hkey]
    rfl
  · rw [if_neg hdelete] at hkey ⊢
    exact Toml.items_of_key hkey rfl hvalue

/-- The items of a table, with fuel for each of them. -/
theorem items_destinations {destinations : List Str} (hne : destinations ≠ [])
    (hscalar : ∀ d ∈ destinations, ∀ c ∈ d, IsScalar c) {fuel : Nat}
    (hfuel : destinations.length < fuel) :
    Toml.items fuel (join (str ", ") (destinations.map domainEntry) ++ str " \x7d") =
      if ∃ d ∈ destinations, delete ∈ d then none else some (allowed destinations, str " \x7d") := by
  induction destinations generalizing fuel with
  | nil => exact absurd rfl hne
  | cons d rest ih =>
    obtain ⟨fuel, rfl⟩ : ∃ k, fuel = k + 2 := ⟨fuel - 2, by rw [List.length_cons] at hfuel; omega⟩
    have hd := hscalar d List.mem_cons_self
    cases rest with
    | nil =>
      rw [List.map_singleton, join, items_domainEntry hd]
      by_cases hdelete : delete ∈ d
      · rw [if_pos hdelete, if_pos ⟨d, List.mem_cons_self, hdelete⟩]
      · rw [if_neg hdelete]
        refine Eq.trans ?_ (if_neg ?_).symm
        · rfl
        · rintro ⟨d', hd', hmem⟩
          rw [List.mem_singleton.mp hd'] at hmem
          exact hdelete hmem
    | cons d' rest =>
      have hlength : (d' :: rest).length < fuel + 1 := by
        simp only [List.length_cons] at hfuel ⊢
        omega
      have hnext := ih (List.cons_ne_nil d' rest) (fun e he => hscalar e (List.mem_cons_of_mem d he))
        hlength
      have htext : join (str ", ") ((d :: d' :: rest).map domainEntry) ++ str " \x7d" =
          domainEntry d ++ (ord ',' :: ord ' ' :: (join (str ", ") ((d' :: rest).map domainEntry) ++
            str " \x7d")) := by
        simp only [List.map_cons, Json.join_cons_cons, List.append_assoc]
        rfl
      have hcomma : ∀ s, Toml.skip (ord ',' :: s) = ord ',' :: s := fun _ => rfl
      have hquote : ∀ s, Toml.skip (ord ' ' :: (join (str ", ") ((d' :: rest).map domainEntry) ++ s)) =
          join (str ", ") ((d' :: rest).map domainEntry) ++ s := by
        intro s
        cases rest <;> rfl
      rw [htext, items_domainEntry hd]
      by_cases hdelete : delete ∈ d
      · rw [if_pos hdelete, if_pos ⟨d, List.mem_cons_self, hdelete⟩]
      · rw [if_neg hdelete, hcomma, List.head?_cons, if_pos rfl, List.tail_cons, hquote, hnext]
        by_cases hrest : ∃ e ∈ d' :: rest, delete ∈ e
        · obtain ⟨e, he, hmem⟩ := hrest
          rw [if_pos ⟨e, he, hmem⟩, if_pos ⟨e, List.mem_cons_of_mem d he, hmem⟩]
          rfl
        · rw [if_neg hrest]
          refine Eq.trans ?_ (if_neg ?_).symm
          · rfl
          · rintro ⟨e, he, hmem⟩
            rcases List.mem_cons.mp he with rfl | he
            · exact hdelete hmem
            · exact hrest ⟨e, he, hmem⟩

/-! ## Tables -/

theorem length_le_join {sep : Str} {parts : List Str} (h : ∀ part ∈ parts, part ≠ []) :
    parts.length ≤ (join sep parts).length := by
  induction parts with
  | nil => exact Nat.zero_le _
  | cons part rest ih =>
    have hpart := List.length_pos_of_ne_nil (h part List.mem_cons_self)
    have hrest := ih fun other hother => h other (List.mem_cons_of_mem part hother)
    have hjoin := (Json.join_length_le sep part rest).1
    rw [List.length_cons]
    omega

theorem consistent_allowed {destinations : List Str} (h : destinations.Nodup) :
    Consistent (allowed destinations) := by
  unfold Consistent allowed
  rw [List.pairwise_map]
  refine h.imp fun {a b} hne => ?_
  constructor
  · intro hprefix
    exact hne (List.cons_prefix_cons.mp hprefix).1
  · intro hprefix
    exact hne (List.cons_prefix_cons.mp hprefix).1.symm

/-- The table is read as the destinations, or not at all. -/
theorem inlineTable_domainTable {destinations : List Str} (hnodup : destinations.Nodup)
    (hscalar : ∀ d ∈ destinations, ∀ c ∈ d, IsScalar c) :
    inlineTable (domainTable destinations) =
      if ∃ d ∈ destinations, delete ∈ d then none else some (allowed destinations) := by
  cases destinations with
  | nil => rfl
  | cons d rest =>
    have hskip : ∀ s, Toml.skip (ord ' ' :: (join (str ", ") ((d :: rest).map domainEntry) ++ s)) =
        join (str ", ") ((d :: rest).map domainEntry) ++ s := by
      intro s
      cases rest <;> rfl
    have hopen : expect '\x7b' (domainTable (d :: rest)) =
        some (ord ' ' :: (join (str ", ") ((d :: rest).map domainEntry) ++ str " \x7d")) := by
      unfold domainTable
      rw [List.append_assoc]
      rfl
    have hne : join (str ", ") ((d :: rest).map domainEntry) ++ str " \x7d" ≠ str "\x7d" := by
      cases rest <;> exact fun heq => absurd (List.cons.inj heq).1 (by decide)
    have hlength : (d :: rest).length <
        (ord ' ' :: (join (str ", ") ((d :: rest).map domainEntry) ++ str " \x7d")).length + 1 := by
      have hparts : ((d :: rest).map domainEntry).length ≤
          (join (str ", ") ((d :: rest).map domainEntry)).length := by
        apply length_le_join
        intro part hpart
        obtain ⟨name, -, rfl⟩ := List.mem_map.mp hpart
        exact List.cons_ne_nil _ _
      rw [List.length_map] at hparts
      simp only [List.length_cons, List.length_append] at hparts ⊢
      omega
    rw [inlineTable, hopen]
    show (if Toml.skip (ord ' ' :: _) = str "\x7d" then _ else _) = _
    rw [hskip, if_neg hne]
    show (Toml.items _ _ >>= fun (table, s) =>
      if Toml.skip s = str "\x7d" ∧ Consistent table then return table else none) = _
    rw [items_destinations (List.cons_ne_nil d rest) hscalar hlength]
    by_cases hdelete : ∃ e ∈ d :: rest, delete ∈ e
    · rw [if_pos hdelete, if_pos hdelete]
      rfl
    · rw [if_neg hdelete, if_neg hdelete]
      exact if_pos ⟨rfl, consistent_allowed hnodup⟩

/-- What follows an item of a table. -/
def afterEntry : List Str → Str
  | [] => str " \x7d"
  | d :: rest => str ", " ++ (domainEntry d ++ afterEntry rest)

theorem join_domainEntry (d : Str) (rest : List Str) :
    join (str ", ") ((d :: rest).map domainEntry) ++ str " \x7d" = domainEntry d ++ afterEntry rest := by
  induction rest generalizing d with
  | nil => rfl
  | cons d' rest ih =>
    rw [List.map_cons, List.map_cons, Json.join_cons_cons, ← List.map_cons, List.append_assoc, ih,
      List.append_assoc]
    rfl

theorem domainEntry_append_inj {d d' s s' : Str} (h : domainEntry d ++ s = domainEntry d' ++ s') :
    d = d' ∧ s = s' := by
  have hentry : ∀ e t : Str, domainEntry e ++ t =
      ord '"' :: (e.flatMap (Json.escapeChar false) ++ ord '"' :: (str " = \"allow\"" ++ t)) := by
    intro e t
    simp [domainEntry, Json.writeStr]
  have hread : ∀ e t : Str, Json.scanString (e.flatMap (Json.escapeChar false) ++ ord '"' :: t) =
      .ok (e, t) := by
    intro e t
    apply Json.scanString_writeStr
    intro hascii
    cases hascii
  rw [hentry, hentry] at h
  have hscan := congrArg Json.scanString (List.cons.inj h).2
  rw [hread, hread] at hscan
  obtain ⟨hname, hafter⟩ := Prod.mk.inj (Except.ok.inj hscan)
  exact ⟨hname, List.append_cancel_left hafter⟩

theorem afterEntry_injective : ∀ {rest rest' : List Str}, afterEntry rest = afterEntry rest' → rest = rest'
  | [], [], _ => rfl
  | [], _ :: _, h => absurd (List.cons.inj h).1 (by decide)
  | _ :: _, [], h => absurd (List.cons.inj h).1 (by decide)
  | d :: rest, d' :: rest', h => by
    obtain ⟨hname, hafter⟩ := domainEntry_append_inj (List.append_cancel_left h)
    rw [hname, afterEntry_injective hafter]

/-- A table determines its destinations. -/
theorem domainTable_injective : Function.Injective domainTable := by
  intro destinations destinations' h
  unfold domainTable at h
  rw [List.append_assoc, List.append_assoc] at h
  have htext := List.append_cancel_left h
  cases destinations with
  | nil =>
    cases destinations' with
    | nil => rfl
    | cons d' rest' =>
      rw [join_domainEntry] at htext
      exact absurd (List.cons.inj htext).1 (by decide)
  | cons d rest =>
    rw [join_domainEntry] at htext
    cases destinations' with
    | nil => exact absurd (List.cons.inj htext).1 (by decide)
    | cons d' rest' =>
      rw [join_domainEntry] at htext
      obtain ⟨hname, hafter⟩ := domainEntry_append_inj htext
      rw [hname, afterEntry_injective hafter]

/-- The setting for an allowlist is a key and a table that is read as the destinations, unless one of
them contains the character U+007F. -/
theorem tomlDomainAllowlist_decodes_iff (network : TaskShellNetworkPolicy)
    (hscalar : ∀ d ∈ network.destinations.items, ∀ c ∈ d, IsScalar c) :
    (∃ table, tomlDomainAllowlist network.destinations.items =
        str "features.network_proxy.domains" ++ str "=" ++ table ∧
      inlineTable table = some (network.destinations.items.map fun d => ([d], str "allow"))) ↔
    ∀ d ∈ network.destinations.items, delete ∉ d := by
  have hnodup : network.destinations.items.Nodup :=
    network.destinations.sorted.imp fun h => ne_of_lt h
  have hread := inlineTable_domainTable hnodup hscalar
  constructor
  · rintro ⟨table, htext, htable⟩ d hd hdelete
    have heq : domainTable network.destinations.items = table := List.append_cancel_left htext
    rw [← heq, hread, if_pos ⟨d, hd, hdelete⟩] at htable
    cases htable
  · intro h
    refine ⟨domainTable network.destinations.items, rfl, ?_⟩
    rw [hread, if_neg]
    · rfl
    · rintro ⟨d, hd, hdelete⟩
      exact h d hd hdelete

/-- Destinations with a control character, a comma, quotes and a backslash. -/
def exampleNetwork : TaskShellNetworkPolicy where
  mode := .allowlist
  destinations := ⟨[str "\x01,", str "\"a\"", str "a, b", str "b\\c"], by decide, by decide⟩
  listed := by decide

theorem tomlDomainAllowlist_decodes_example :
    ∃ table, tomlDomainAllowlist exampleNetwork.destinations.items =
        str "features.network_proxy.domains" ++ str "=" ++ table ∧
      inlineTable table = some [([str "\x01,"], str "allow"), ([str "\"a\""], str "allow"),
        ([str "a, b"], str "allow"), ([str "b\\c"], str "allow")] := by
  have hscalar : ∀ d ∈ exampleNetwork.destinations.items, ∀ c ∈ d, IsScalar c :=
    List.forall_mem_cons.mpr ⟨isScalar_str "\x01,", List.forall_mem_cons.mpr ⟨isScalar_str "\"a\"",
      List.forall_mem_cons.mpr ⟨isScalar_str "a, b", List.forall_mem_singleton.mpr
        (isScalar_str "b\\c")⟩⟩⟩
  apply (tomlDomainAllowlist_decodes_iff exampleNetwork hscalar).mpr
  decide

def exampleDeleted : TaskShellNetworkPolicy where
  mode := .allowlist
  destinations := ⟨[str "a\x7fb"], by decide, by decide⟩
  listed := by decide

/-- A valid destination of which the table is no table. -/
theorem deleted_not_decoded :
    (∀ d ∈ exampleDeleted.destinations.items, ∀ c ∈ d, IsScalar c) ∧
      ¬ ∃ table, tomlDomainAllowlist exampleDeleted.destinations.items =
          str "features.network_proxy.domains" ++ str "=" ++ table ∧
        inlineTable table =
          some (exampleDeleted.destinations.items.map fun d => ([d], str "allow")) := by
  refine ⟨List.forall_mem_singleton.mpr (isScalar_str "a\x7fb"), ?_⟩
  rintro ⟨table, htext, htable⟩
  have heq : domainTable exampleDeleted.destinations.items = table := List.append_cancel_left htext
  have hnone : inlineTable (domainTable exampleDeleted.destinations.items) = none := by
    decide +kernel
  rw [← heq, hnone] at htable
  cases htable

end AgentDev.Agents
