import AgentDev.Agents.Drivers
import AgentDev.Broker.Requests
import AgentDev.Execution.Runs

/-!
# Run requests of the client

`runtime_request` and `send_frame` of `broker/cli.py`. The line of a request has a length that its
names and the characters of its prompt determine (`sendFrame_length`): a character takes up to twelve
bytes, so the limit of a line can be reached before the limit of a prompt.
-/

namespace AgentDev.Broker

open Python Policy
open Python.Json hiding Unit

/-! ## Requests -/

/-- The arguments of `agentctl run`, as `argparse` returns them. -/
structure RunArguments where
  provider : Str
  project : Str
  task : Str
  readonly : Bool
  outerOnly : Bool
  prompt : Option Str
  /-- `choices=["codex", "cursor"]` -/
  choice : provider = str "codex" ∨ provider = str "cursor"

/-- `check_name`; the error is what `die` prints. -/
def checkName (value what : Str) : Except Message Str :=
  if Agents.isValidName value then .ok value
  else
    .error [.text (str "invalid " ++ what ++ str " name "), .repr (.str value),
      .text (str "; use letters, numbers, dot, underscore or dash")]

/-- `runtime_request(args, "run")` -/
def runtimeRequest (args : RunArguments) : Except Message Dict := do
  let project ← checkName args.project (str "project")
  let task ← checkName args.task (str "task")
  let req : Dict :=
    [(.str (str "op"), .str (str "run")), (.str (str "provider"), .str args.provider),
      (.str (str "project"), .str project), (.str (str "task"), .str task),
      (.str (str "readonly"), .bool args.readonly), (.str (str "outer_only"), .bool args.outerOnly)]
  match args.prompt.getD [] with
  | [] => return req
  | prompt => return req.set (.str (str "prompt")) (.str prompt)

/-- What `send_frame` sends. -/
def sendFrame (floats : FloatText) (obj : Dict) : Except Json.Error (List UInt8) :=
  lineBytes floats (.dict obj)

/-! ## The request -/

/-- The items of a request with a prompt. -/
def requestItems (args : RunArguments) (prompt : Str) : Dict :=
  [(.str (str "op"), .str (str "run")), (.str (str "provider"), .str args.provider),
    (.str (str "project"), .str args.project), (.str (str "task"), .str args.task),
    (.str (str "readonly"), .bool args.readonly), (.str (str "outer_only"), .bool args.outerOnly)] ++
  if prompt = [] then [] else [(.str (str "prompt"), .str prompt)]

/-- The prompt; there is none for an empty one. -/
def RunArguments.promptText (args : RunArguments) : Str := args.prompt.getD []

theorem checkName_ok {value what name : Str} (h : checkName value what = .ok name) :
    Agents.isValidName value = true ∧ name = value := by
  unfold checkName at h
  split at h
  · rename_i hvalid
    cases h
    exact ⟨hvalid, rfl⟩
  · cases h

theorem runtimeRequest_ok {args : RunArguments} {req : Dict} (h : runtimeRequest args = .ok req) :
    Agents.isValidName args.project = true ∧ Agents.isValidName args.task = true ∧
      req = requestItems args args.promptText := by
  obtain ⟨project, hproject, h⟩ := bind_ok_iff.mp h
  obtain ⟨task, htask, h⟩ := bind_ok_iff.mp h
  obtain ⟨hvalidProject, rfl⟩ := checkName_ok hproject
  obtain ⟨hvalidTask, rfl⟩ := checkName_ok htask
  refine ⟨hvalidProject, hvalidTask, ?_⟩
  unfold RunArguments.promptText requestItems
  split at h
  · rename_i hprompt
    cases h
    rw [hprompt]
    rfl
  · rename_i hprompt
    cases h
    rw [if_neg hprompt]
    rfl

theorem runtimeRequest_of_valid {args : RunArguments}
    (hproject : Agents.isValidName args.project = true)
    (htask : Agents.isValidName args.task = true) :
    runtimeRequest args = .ok (requestItems args args.promptText) := by
  have hcheck : ∀ {name : Str} (what : Str), Agents.isValidName name = true →
      checkName name what = .ok name := fun what hname => if_pos hname
  unfold runtimeRequest
  rw [hcheck _ hproject, hcheck _ htask]
  unfold RunArguments.promptText requestItems
  dsimp only [bind, Except.bind]
  split
  · rename_i hprompt
    rw [hprompt]
    rfl
  · rename_i hprompt
    rw [if_neg hprompt]
    rfl

/-! ## The length of a line -/

/-- How many characters a character is written as: the backslash, the quote and some control
characters have an escape of one letter, and the characters beyond U+FFFF take two codes. -/
def characterCost (c : CodePoint) : Nat :=
  if c ∈ [ord '\\', ord '"', 8, 12, 10, 13, 9] then 2
  else if 0x20 ≤ c.val ∧ c.val ≤ 0x7E then 1
  else if c.val < 0x10000 then 6
  else 12

def textCost (s : Str) : Nat := (s.map characterCost).sum

theorem length_escapeChar (c : CodePoint) : (escapeChar true c).length = characterCost c := by
  have hnames : shortEscapes.map Prod.fst = [ord '\\', ord '"', 8, 12, 10, 13, 9] := rfl
  unfold escapeChar characterCost
  rw [← hnames]
  cases hlookup : shortEscapes.lookup c with
  | some letter =>
    obtain ⟨before, after, hsplit, -⟩ := List.lookup_eq_some_iff.mp hlookup
    have hmem : c ∈ shortEscapes.map Prod.fst := by simp [hsplit]
    rw [if_pos hmem]
    rfl
  | none =>
    have hmem : c ∉ shortEscapes.map Prod.fst := by
      intro hmem
      obtain ⟨item, hitem, rfl⟩ := List.mem_map.mp hmem
      exact absurd (List.lookup_eq_none_iff.mp hlookup item hitem) (by simp)
    rw [if_neg hmem]
    by_cases hplain : 0x20 ≤ c.val ∧ c.val ≤ 0x7E
    · have hescaped : ¬(decide (c.val < 0x20) || (true && decide (0x7E < c.val))) = true := by
        simp only [Bool.true_and, Bool.or_eq_true, decide_eq_true_eq]
        omega
      rw [if_pos hplain]
      dsimp only
      rw [if_neg hescaped]
      rfl
    · have hescaped : (decide (c.val < 0x20) || (true && decide (0x7E < c.val))) = true := by
        simp only [Bool.true_and, Bool.or_eq_true, decide_eq_true_eq]
        omega
      rw [if_neg hplain]
      dsimp only
      rw [if_pos hescaped]
      by_cases hbmp : c.val < 0x10000
      · rw [if_pos hbmp, if_pos hbmp]
        rfl
      · rw [if_neg hbmp, if_neg hbmp]
        rfl

theorem length_writeStr (s : Str) : (writeStr true s).length = textCost s + 2 := by
  have hcost : s.map (fun c => (escapeChar true c).length) = s.map characterCost :=
    List.map_congr_left fun c _ => length_escapeChar c
  simp only [writeStr, List.length_cons, List.length_append, List.length_flatMap, hcost, textCost,
    List.length_nil]

theorem valid_characters {name : Str} (h : Agents.isValidName name = true) :
    ∀ c ∈ name, (Agents.isAlnum c || c ∈ str "._-") = true := by
  cases name with
  | nil => cases h
  | cons first rest =>
    simp only [Agents.isValidName, Bool.and_eq_true] at h
    rw [List.forall_mem_cons]
    constructor
    · rw [h.1.1, Bool.true_or]
    · exact List.all_eq_true.mp h.1.2

theorem length_of_valid {name : Str} (h : Agents.isValidName name = true) : name.length ≤ 64 := by
  cases name with
  | nil => cases h
  | cons first rest =>
    simp only [Agents.isValidName, Bool.and_eq_true, decide_eq_true_eq] at h
    exact Nat.succ_le_succ h.2

theorem characterCost_of_valid {c : CodePoint}
    (h : (Agents.isAlnum c || c ∈ str "._-") = true) : characterCost c = 1 ∧ c.val < 128 := by
  have hrange : 48 ≤ c.val ∧ c.val ≤ 57 ∨ 65 ≤ c.val ∧ c.val ≤ 90 ∨ 97 ≤ c.val ∧ c.val ≤ 122 ∨
      c.val = 46 ∨ c.val = 95 ∨ c.val = 45 := by
    rcases Bool.or_eq_true_iff.mp h with hc | hc
    · simp only [Agents.isAlnum, Bool.or_eq_true, Bool.and_eq_true, decide_eq_true_eq] at hc
      omega
    · have hvals : c.val ∈ [46, 95, 45] := List.mem_map_of_mem (of_decide_eq_true hc) (f := Fin.val)
      simp only [List.mem_cons, List.not_mem_nil, or_false] at hvals
      omega
  have hshort : c ∉ [ord '\\', ord '"', 8, 12, 10, 13, 9] := by
    intro hmem
    have hvals : c.val ∈ [92, 34, 8, 12, 10, 13, 9] := List.mem_map_of_mem hmem (f := Fin.val)
    simp only [List.mem_cons, List.not_mem_nil, or_false] at hvals
    omega
  rw [characterCost, if_neg hshort, if_pos (by omega)]
  exact ⟨rfl, by omega⟩

/-- The characters of a name are written as they are. -/
theorem textCost_of_valid {name : Str} (h : Agents.isValidName name = true) :
    textCost name = name.length := by
  have hcosts : name.map characterCost = name.map fun _ => 1 :=
    List.map_congr_left fun c hc => (characterCost_of_valid (valid_characters h c hc)).1
  rw [textCost, hcosts, List.map_const', List.sum_replicate_nat, Nat.mul_one]

/-- The text of a truth value. -/
def boolText (b : Bool) : Str := if b then str "true" else str "false"

/-- The length of the line of a request. -/
def lineLength (args : RunArguments) : Nat :=
  76 + args.provider.length + args.project.length + args.task.length +
    (boolText args.readonly).length + (boolText args.outerOnly).length +
    if args.promptText = [] then 0 else 12 + textCost args.promptText

theorem pairFree_of_valid {name : Str} (h : Agents.isValidName name = true) : PairFree name := by
  apply pairFree_of_scalar
  intro c hc
  have := (characterCost_of_valid (valid_characters h c hc)).2
  exact Or.inl (by omega)

/-! ## The line -/

section

variable {floats : FloatText} {args : RunArguments}

theorem serializable_request {prompt : Str} (hproject : Agents.isValidName args.project = true)
    (htask : Agents.isValidName args.task = true) (hprompt : PairFree prompt) :
    Serializable lineFormat (.dict (requestItems args prompt)) := by
  have hprovider : PairFree args.provider := by
    rcases args.choice with h | h
    · rw [h]
      exact pairFree_str _
    · rw [h]
      exact pairFree_str _
  have hnames : ([str "op", str "provider", str "project", str "task", str "readonly",
      str "outer_only"] ++ [str "prompt"]).Nodup := by decide +kernel
  by_cases hempty : prompt = []
  · rw [requestItems, if_pos hempty, List.append_nil]
    refine ⟨hnames.sublist (List.sublist_append_left _ [str "prompt"]), ?_⟩
    exact ⟨fun _ => pairFree_str _, fun _ => pairFree_str _, fun _ => pairFree_str _,
      fun _ => hprovider, fun _ => pairFree_str _, fun _ => pairFree_of_valid hproject,
      fun _ => pairFree_str _, fun _ => pairFree_of_valid htask, fun _ => pairFree_str _, trivial,
      fun _ => pairFree_str _, trivial, trivial⟩
  · rw [requestItems, if_neg hempty]
    refine ⟨hnames, ?_⟩
    exact ⟨fun _ => pairFree_str _, fun _ => pairFree_str _, fun _ => pairFree_str _,
      fun _ => hprovider, fun _ => pairFree_str _, fun _ => pairFree_of_valid hproject,
      fun _ => pairFree_str _, fun _ => pairFree_of_valid htask, fun _ => pairFree_str _, trivial,
      fun _ => pairFree_str _, trivial, fun _ => pairFree_str _, fun _ => hprompt, trivial⟩

/-- The texts of the items. -/
def itemTexts (args : RunArguments) (prompt : Str) : List Str :=
  [itemText lineFormat (str "op") (writeStr true (str "run")),
    itemText lineFormat (str "provider") (writeStr true args.provider),
    itemText lineFormat (str "project") (writeStr true args.project),
    itemText lineFormat (str "task") (writeStr true args.task),
    itemText lineFormat (str "readonly") (boolText args.readonly),
    itemText lineFormat (str "outer_only") (boolText args.outerOnly)] ++
  if prompt = [] then [] else [itemText lineFormat (str "prompt") (writeStr true prompt)]

theorem writeItems_item {name text : Str} {value : Value} {items : Dict} {texts : List Str}
    (hvalue : write floats lineFormat value = .ok text)
    (hitems : writeItems floats lineFormat items = .ok texts) :
    writeItems floats lineFormat ((.str name, value) :: items) =
      .ok (itemText lineFormat name text :: texts) := by
  rw [writeItems, hvalue]
  show (writeItems floats lineFormat items >>= _) = _
  rw [hitems]
  rfl

theorem write_bool (b : Bool) : write floats lineFormat (.bool b) = .ok (boolText b) := by
  cases b <;> rfl

theorem dumps_request (prompt : Str) :
    dumps floats lineFormat (.dict (requestItems args prompt)) =
      .ok (ord '\x7b' :: (join (str ",") (itemTexts args prompt) ++ str "\x7d")) := by
  have hlast : writeItems floats lineFormat
      (if prompt = [] then [] else [(.str (str "prompt"), .str prompt)]) =
        .ok (if prompt = [] then []
          else [itemText lineFormat (str "prompt") (writeStr true prompt)]) := by
    by_cases hempty : prompt = []
    · rw [if_pos hempty, if_pos hempty]
      rfl
    · rw [if_neg hempty, if_neg hempty]
      exact writeItems_item rfl rfl
  have hitems : writeItems floats lineFormat (requestItems args prompt) =
      .ok (itemTexts args prompt) :=
    writeItems_item rfl (writeItems_item rfl (writeItems_item rfl (writeItems_item rfl
      (writeItems_item (write_bool _) (writeItems_item (write_bool _) hlast)))))
  show (writeItems floats lineFormat (requestItems args prompt) >>= _) = _
  rw [hitems]
  rfl

theorem rejoin_eq_nil {s : Str} : rejoin s = [] ↔ s = [] := by
  fun_cases rejoin s with
  | case1 => exact Iff.rfl
  | _ => simp

/-- A prompt is written as the one in which its pairs of surrogates are characters. -/
theorem itemTexts_rejoin (prompt : Str) : itemTexts args (rejoin prompt) = itemTexts args prompt := by
  by_cases hempty : prompt = []
  · rw [hempty]
    rfl
  · have hrejoin : rejoin prompt ≠ [] := fun h => hempty (rejoin_eq_nil.mp h)
    rw [itemTexts, itemTexts, if_neg hempty, if_neg hrejoin, writeStr_rejoin]

theorem length_itemText (name text : Str) :
    (itemText lineFormat name text).length = textCost name + 3 + text.length := by
  have hname : (writeStr lineFormat.ensureAscii name).length = textCost name + 2 :=
    length_writeStr name
  rw [itemText, List.length_append, hname, List.length_cons]
  omega

theorem length_line (hproject : Agents.isValidName args.project = true)
    (htask : Agents.isValidName args.task = true) :
    (ord '\x7b' :: (join (str ",") (itemTexts args args.promptText) ++ str "\x7d") ++
      [newline]).length = lineLength args := by
  have hprovider : textCost args.provider = args.provider.length := by
    rcases args.choice with h | h
    · rw [h]
      decide +kernel
    · rw [h]
      decide +kernel
  have hproject := textCost_of_valid hproject
  have htask := textCost_of_valid htask
  -- The names of the fields, and the operation.
  have hop : textCost (str "op") = 2 := by decide +kernel
  have hrun : textCost (str "run") = 3 := by decide +kernel
  have hprovider' : textCost (str "provider") = 8 := by decide +kernel
  have hproject' : textCost (str "project") = 7 := by decide +kernel
  have htask' : textCost (str "task") = 4 := by decide +kernel
  have hreadonly : textCost (str "readonly") = 8 := by decide +kernel
  have houter : textCost (str "outer_only") = 10 := by decide +kernel
  have hprompt : textCost (str "prompt") = 6 := by decide +kernel
  have hcomma : (str ",").length = 1 := rfl
  have hbrace : (str "\x7d").length = 1 := rfl
  unfold lineLength itemTexts
  by_cases hempty : args.promptText = []
  · simp only [if_pos hempty, List.append_nil, join, List.length_cons, List.length_append,
      length_itemText, length_writeStr, List.length_nil]
    omega
  · simp only [if_neg hempty, List.cons_append, List.nil_append, join, List.length_cons,
      List.length_append, length_itemText, length_writeStr, List.length_nil]
    omega

/-- The line of a request; what is read of it has the pairs of surrogates of the prompt joined. -/
theorem sendFrame_ok (floats : FloatText) {req : Dict} {limit : Nat} (h : runtimeRequest args = .ok req)
    (hlimit : 1 ≤ limit) :
    ∃ line, sendFrame floats req = .ok line ∧ line.length = lineLength args ∧
      loadsBytes floats limit line = .ok (.dict (requestItems args (rejoin args.promptText))) := by
  obtain ⟨hproject, htask, rfl⟩ := runtimeRequest_ok h
  have hserial : Serializable lineFormat (.dict (requestItems args (rejoin args.promptText))) :=
    serializable_request hproject htask (pairFree_rejoin _)
  obtain ⟨text, hdumps, -, hbytes⟩ := lineBytes_eq floats hserial
  have hline : sendFrame floats (requestItems args args.promptText) =
      .ok ((text ++ [newline]).map asciiByte) := by
    rw [← hbytes]
    unfold sendFrame lineBytes
    rw [dumps_request, dumps_request, itemTexts_rejoin]
  refine ⟨_, hline, ?_, ?_⟩
  · rw [dumps_request, itemTexts_rejoin] at hdumps
    cases hdumps
    rw [List.length_map]
    exact length_line hproject htask
  · apply loadsBytes_lineBytes hbytes hserial
    unfold requestItems
    split
    · exact hlimit
    · exact hlimit

theorem characterCost_le {c : CodePoint} (h : c.val < 0x10000) : characterCost c ≤ 6 := by
  unfold characterCost
  split
  · decide
  · split
    · decide
    · exact Nat.le_refl 6

theorem textCost_le {s : Str} {n : Nat} (h : ∀ c ∈ s, characterCost c ≤ n) :
    textCost s ≤ s.length * n := by
  induction s with
  | nil => exact Nat.zero_le _
  | cons c rest ih =>
    have hc := h c List.mem_cons_self
    have hrest := ih fun d hd => h d (List.mem_cons_of_mem c hd)
    rw [textCost, List.map_cons, List.sum_cons, List.length_cons, Nat.add_mul, Nat.one_mul,
      Nat.add_comm]
    exact Nat.add_le_add hrest hc

/-- A prompt without characters beyond U+FFFF fits into a line. -/
theorem lineLength_le {req : Dict} (h : runtimeRequest args = .ok req)
    (hlength : args.promptText.length ≤ 100000) (hbmp : ∀ c ∈ args.promptText, c.val < 0x10000) :
    lineLength args ≤ 1024 * 1024 := by
  obtain ⟨hproject, htask, -⟩ := runtimeRequest_ok h
  have hcost := textCost_le fun c hc => characterCost_le (hbmp c hc)
  have hprovider : args.provider.length ≤ 6 := by
    rcases args.choice with h | h
    · rw [h]
      decide
    · rw [h]
      decide
  have hbool : ∀ b, (boolText b).length ≤ 5 := by decide
  have hproject := length_of_valid hproject
  have htask := length_of_valid htask
  have hreadonly := hbool args.readonly
  have houter := hbool args.outerOnly
  unfold lineLength
  split
  · omega
  · omega

theorem requestItems_injective {prompt prompt' : Str}
    (h : requestItems args prompt = requestItems args prompt') : prompt = prompt' := by
  unfold requestItems at h
  have htail := List.append_cancel_left h
  split at htail
  · rename_i hempty
    split at htail
    · rename_i hempty'
      rw [hempty, hempty']
    · cases htail
  · split at htail
    · cases htail
    · cases htail
      rfl

/-- The broker takes the prompt of a request if it is short enough. -/
theorem promptOf_request {prompt : Str} (h : prompt.length ≤ 100000) :
    Execution.promptOf (requestItems args prompt) = .ok prompt := by
  have hother : ∀ (value : Value) (name : String) (rest : Dict), str "prompt" ≠ str name →
      Dict.get? ((.str (str name), value) :: rest) (str "prompt") = rest.get? (str "prompt") := by
    intro value name rest hne
    rw [Dict.get?, Dict.lookup_cons, if_neg fun heq => hne (Key.str.inj heq)]
    rfl
  have hget : (requestItems args prompt).get? (str "prompt") =
      if prompt = [] then none else some (.str prompt) := by
    unfold requestItems
    simp only [List.cons_append, List.nil_append]
    rw [hother _ "op" _ (by decide), hother _ "provider" _ (by decide),
      hother _ "project" _ (by decide), hother _ "task" _ (by decide),
      hother _ "readonly" _ (by decide), hother _ "outer_only" _ (by decide)]
    split
    · rfl
    · rw [Dict.get?, Dict.lookup_cons, if_pos rfl]
  unfold Execution.promptOf Execution.argument
  rw [hget]
  by_cases hempty : prompt = []
  · rw [hempty]
    rfl
  · rw [if_neg hempty]
    exact if_pos h

/-- A line that fits is received as the request, up to the pairs of surrogates in its prompt, and the
broker takes the prompt; a line that does not fit is rejected. -/
theorem sendFrame_accepted_iff (floats : FloatText) {req : Dict} {limit : Nat}
    (h : runtimeRequest args = .ok req)
    (hlength : args.promptText.length ≤ 100000) (hlimit : 1 ≤ limit) :
    ∃ line, sendFrame floats req = .ok line ∧ Execution.promptOf req = .ok args.promptText ∧
      (line.length ≤ 1024 * 1024 ∧ loadsBytes floats limit line = .ok (.dict req) ↔
        lineLength args ≤ 1024 * 1024 ∧ PairFree args.promptText) ∧
      (recvJsonLine floats limit line = .ok (.dict req) ↔
        lineLength args ≤ 1024 * 1024 ∧ PairFree args.promptText) ∧
      (recvJsonLine floats limit line = .error (requestError (str "RPC frame too large")) ↔
        1024 * 1024 < lineLength args) ∧
      ((∀ c ∈ args.promptText, c.val < 0x10000) → lineLength args ≤ 1024 * 1024) := by
  obtain ⟨line, hline, hcount, hloads⟩ := sendFrame_ok floats h hlimit
  obtain ⟨-, -, hreq⟩ := runtimeRequest_ok h
  have hsame : loadsBytes floats limit line = .ok (.dict req) ↔ PairFree args.promptText := by
    rw [hloads, hreq, ← rejoin_eq_self]
    constructor
    · intro heq
      exact requestItems_injective (Value.dict.inj (Except.ok.inj heq))
    · intro heq
      rw [heq]
  have hfits : line.length ≤ 1024 * 1024 ∧ loadsBytes floats limit line = .ok (.dict req) ↔
      lineLength args ≤ 1024 * 1024 ∧ PairFree args.promptText := by rw [hcount, hsame]
  refine ⟨line, hline, ?_, hfits, recvJsonLine_dict.trans hfits, ?_, lineLength_le h hlength⟩
  · rw [hreq]
    exact promptOf_request hlength
  · have hne : line ≠ [] := by
      rintro rfl
      rw [List.length_nil, lineLength] at hcount
      omega
    rw [recvJsonLine, if_neg hne, hcount]
    by_cases hlong : 1024 * 1024 < lineLength args
    · rw [if_pos hlong]
      exact ⟨fun _ => hlong, fun _ => rfl⟩
    · rw [if_neg hlong, hloads]
      constructor
      · intro heq
        cases heq
      · exact fun h => absurd h hlong

end

/-- A prompt of a hundred thousand characters beyond U+FFFF. -/
def emojiArguments : RunArguments where
  provider := str "codex"
  project := str "p"
  task := str "t"
  readonly := false
  outerOnly := false
  prompt := some (List.replicate 100000 (chr 0x1F600))
  choice := Or.inl rfl

/-- The prompt is short enough, but its line is not. -/
theorem emoji_rejected : ∃ req line, runtimeRequest emojiArguments = .ok req ∧
    emojiArguments.promptText.length ≤ 100000 ∧ sendFrame exactDecimals req = .ok line ∧
    Execution.promptOf req = .ok emojiArguments.promptText ∧ 1024 * 1024 < line.length ∧
    recvJsonLine exactDecimals 1000 line = .error (requestError (str "RPC frame too large")) := by
  have hrequest : runtimeRequest emojiArguments =
      .ok (requestItems emojiArguments emojiArguments.promptText) :=
    runtimeRequest_of_valid (by decide +kernel) (by decide +kernel)
  have hprompt : emojiArguments.promptText = List.replicate 100000 (chr 0x1F600) := rfl
  have hlength : emojiArguments.promptText.length = 100000 := by
    rw [hprompt, List.length_replicate]
  have hcost : textCost emojiArguments.promptText = 100000 * 12 := by
    have hcharacter : characterCost (chr 0x1F600) = 12 := by decide +kernel
    rw [hprompt, textCost, List.map_replicate, List.sum_replicate_nat, hcharacter]
  have hne : emojiArguments.promptText ≠ [] := by
    intro heq
    rw [heq] at hlength
    cases hlength
  obtain ⟨line, hline, hcount, hloads⟩ := sendFrame_ok exactDecimals hrequest (show 1 ≤ 1000 by decide)
  have hlong : 1024 * 1024 < line.length := by
    rw [hcount, lineLength, if_neg hne, hcost]
    omega
  have hempty : line ≠ [] := by
    rintro rfl
    cases hlong
  refine ⟨_, line, hrequest, Nat.le_of_eq hlength, hline, promptOf_request (Nat.le_of_eq hlength),
    hlong, ?_⟩
  rw [recvJsonLine, if_neg hempty, if_pos hlong]

def greetingArguments : RunArguments where
  provider := str "cursor"
  project := str "p"
  task := str "t"
  readonly := true
  outerOnly := false
  prompt := some (str "hi")
  choice := Or.inr rfl

theorem sendFrame_accepted_iff_greeting : ∃ line,
    sendFrame exactDecimals (requestItems greetingArguments greetingArguments.promptText) = .ok line ∧
      (recvJsonLine exactDecimals 1 line =
          .ok (.dict (requestItems greetingArguments greetingArguments.promptText)) ↔
        lineLength greetingArguments ≤ 1024 * 1024 ∧ PairFree greetingArguments.promptText) := by
  have hrequest : runtimeRequest greetingArguments =
      .ok (requestItems greetingArguments greetingArguments.promptText) := rfl
  obtain ⟨line, hline, -, -, hrecv, -⟩ := sendFrame_accepted_iff exactDecimals hrequest
    (by decide +kernel) (Nat.le_refl 1)
  exact ⟨line, hline, hrecv⟩

end AgentDev.Broker
