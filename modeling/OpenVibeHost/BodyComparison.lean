import OpenVibeHost.DrillEnvironment
import OpenVibeHost.JsonRoundTrip
import OpenVibeHost.Doubles
import Mathlib.Data.List.Sort

/-! How a restore drill compares an answer of its own instance with production's, `lib/commands/drill.js`, and what
the comparison says about the two JSON bodies. -/
namespace OpenVibeHost.Bodies
open Doubles (Double ofRat)
open Drill (objectNames arrayNames)

/-! ### JavaScript values -/

/-- `object[key] = value`: a key keeps its place. -/
def setMember {α : Type} (members : List (String × α)) (key : String) (value : α) : List (String × α) :=
  if members.any (·.1 = key) then members.map fun member => if member.1 = key then (key, value) else member
  else members ++ [(key, value)]

mutual
/-- What `JSON.parse` makes of the members it read: of a repeated name the last value counts. -/
def parsed : Json → Json
  | .arr items => .arr (parsedItems items)
  | .obj fields => .obj (parsedFields [] fields)
  | value => value

def parsedItems : List Json → List Json
  | [] => []
  | item :: rest => parsed item :: parsedItems rest

def parsedFields (members : List (String × Json)) : List (String × Json) → List (String × Json)
  | [] => members
  | (name, value) :: rest => parsedFields (setMember members name (parsed value)) rest
end

/-- `JSON.parse` of a body that may be missing. -/
def jsonParse (body : Option String) : Option Json := (body.bind Json.parse).map parsed

/-- A value as `stripKeys` makes one, and what may be found in one: an object has a prototype, and that of `{}` has
built-in functions only. -/
inductive Value where
  | null
  | bool (value : Bool)
  | number (value : Double)
  | text (value : String)
  | array (items : List Value)
  | object (own : List (String × Value)) (prototype : Value)
  | objectPrototype
  | function

/-- `value[key]`, where `key in value`. Nobody asks for `__proto__`: no stripped object has it as a key. -/
def get? (key : String) : Value → Option Value
  | .object own prototype => (own.lookup key).or (get? key prototype)
  | .array items =>
    if key = "length" then some (.number (ofRat items.length))
    else ((Json.index? key).bind fun i => items[i]?).or
      (if key ∈ arrayNames ++ objectNames then some .function else none)
  | .objectPrototype => if key ∈ objectNames then some .function else none
  | _ => none

/-- `out[key] = value`: the key `__proto__` sets the prototype, and only to an object or to null. -/
def put (out : Value) (key : String) (value : Value) : Value :=
  match out with
  | .object own prototype =>
    if key = "__proto__" then
      match value with
      | .object .. | .array _ | .null => .object own value
      | _ => .object own prototype
    else .object (setMember own key value) prototype
  | other => other

/-- An array index, which `Object.keys` has before other keys. -/
def arrayIndex (key : String) : Option Nat := (Json.index? key).filter (· < 4294967295)

/-- `Object.keys`: indices in ascending order, then the other keys as they were set. -/
def ownKeys (own : List (String × Value)) : List String :=
  ((own.map (·.1)).filter fun key => (arrayIndex key).isSome).insertionSort
      (fun k l => (arrayIndex k).getD 0 ≤ (arrayIndex l).getD 0) ++
    (own.map (·.1)).filter fun key => (arrayIndex key).isNone

/-- `new Set([...Object.keys(a), ...Object.keys(b)])`. -/
def allKeys (own others : List (String × Value)) : List String :=
  ownKeys own ++ (ownKeys others).filter (· ∉ ownKeys own)

/-! ### The comparison -/

mutual
def stripKeys (keys : List String) : Json → Value
  | .null => .null
  | .bool value => .bool value
  | .num value => .number (ofRat value)
  | .str text => .text text
  | .arr items => .array (stripItems keys items)
  | .obj fields => stripFields keys (.object [] .objectPrototype) fields

def stripItems (keys : List String) : List Json → List Value
  | [] => []
  | item :: rest => stripKeys keys item :: stripItems keys rest

def stripFields (keys : List String) (out : Value) : List (String × Json) → Value
  | [] => out
  | (name, value) :: rest =>
    stripFields keys (if name ∈ keys then out else put out name (stripKeys keys value)) rest
end

/-- `JSON.stringify(a) === JSON.stringify(b)`, of values that are not both arrays and not both objects. A number that is
not finite is written as null, and a function not at all. -/
def sameText : Value → Value → Bool
  | .number (.finite a), .number (.finite b) => a = b
  | .number (.finite _), _ => false
  | _, .number (.finite _) => false
  | .null, .null | .null, .number _ | .number _, .null | .number _, .number _ => true
  | .bool a, .bool b => a = b
  | .text a, .text b => a = b
  | .function, .function => true
  | _, _ => false

section
variable (diff : Value → Value → String → List String → List String)

/-- The loop over two arrays of one length. -/
def diffItems (p : String) : Nat → List Value → List Value → List String → List String
  | i, x :: xs, y :: ys, out => diffItems p (i + 1) xs ys (diff x y (p ++ "[" ++ toString i ++ "]") out)
  | _, _, _, out => out

/-- One key of two objects. -/
def diffKey (a b : Value) (p k : String) (out : List String) : List String :=
  match get? k a, get? k b with
  | none, _ => out ++ [p ++ "." ++ k ++ " only in the drill instance"]
  | some _, none => out ++ [p ++ "." ++ k ++ " missing in the drill instance"]
  | some x, some y => diff x y (p ++ "." ++ k) out

/-- The loop over the keys of two objects, which stops at five differences. -/
def diffKeys (a b : Value) (p : String) : List String → List String → List String
  | [], out => out
  | k :: ks, out =>
    if 5 ≤ (diffKey diff a b p k out).length then diffKey diff a b p k out
    else diffKeys a b p ks (diffKey diff a b p k out)
end

/-- `diffPaths`; `fuel` bounds the depth, and the height of the first value is enough. -/
def diffPaths : Nat → Value → Value → String → List String → List String
  | 0, _, _, _, out => out
  | fuel + 1, a, b, p, out =>
    if 5 ≤ out.length then out
    else
      match a, b with
      | .array xs, .array ys =>
        if xs.length ≠ ys.length then
          out ++ [p ++ ".length " ++ toString ys.length ++ " ≠ " ++ toString xs.length]
        else diffItems (diffPaths fuel) p 0 xs ys out
      | .object own _, .object others _ =>
        diffKeys (diffPaths fuel) a b p (allKeys own others) out
      | _, _ => if sameText a b then out else out ++ [p]

mutual
/-- How deep a value is, its prototypes included. -/
def height : Value → Nat
  | .array items => heightItems items + 1
  | .object own prototype => max (heightMembers own) (height prototype) + 1
  | _ => 0

def heightItems : List Value → Nat
  | [] => 0
  | item :: rest => max (height item) (heightItems rest)

def heightMembers : List (String × Value) → Nat
  | [] => 0
  | (_, value) :: rest => max (height value) (heightMembers rest)
end

/-- What `exec.http` gives: a status, 0 without an answer. -/
structure Answer where
  status : Nat := 0
  body : Option String := none
  error : Option String := none

structure Entry where
  path : String
  ignore : List String

structure Comparison where
  path : String
  productionStatus : Nat
  drillStatus : Nat
  matched : Bool := false
  detail : Option String := none
  mode : Option String := none

/-- `status || error || otherwise`. -/
def Answer.told (answer : Answer) (otherwise : String) : String :=
  if answer.status ≠ 0 then toString answer.status
  else match answer.error with
    | some error => if error = "" then otherwise else error
    | none => otherwise

/-- `Buffer.from(body || '')`. -/
def Answer.bytes (answer : Answer) : List UInt8 := (answer.body.getD "").toUTF8.toList

def compareBodies (entry : Entry) (prod drill : Answer) : Comparison :=
  let res : Comparison := { path := entry.path, productionStatus := prod.status, drillStatus := drill.status }
  if ¬(200 ≤ prod.status ∧ prod.status < 300) then { res with detail := some ("production answered " ++ prod.told "nothing") }
  else if prod.status ≠ drill.status then
    { res with detail := some ("status " ++ drill.told "no answer" ++ " ≠ production " ++ toString prod.status) }
  else if entry.ignore = [] then
    if prod.body = drill.body then { res with matched := true, mode := some "bytes" }
    else
      let same := ((prod.bytes.zip drill.bytes).takeWhile fun pair => pair.1 = pair.2).length
      { res with detail := some ("bodies differ: " ++ toString drill.bytes.length ++ " bytes vs production " ++
          toString prod.bytes.length ++ ", first difference at byte " ++ toString same) }
  else
    match jsonParse prod.body, jsonParse drill.body with
    | some pa, some pb =>
      let a := stripKeys entry.ignore pa
      let diffs := diffPaths (height a + 1) a (stripKeys entry.ignore pb) "$" []
      let res := { res with mode := some ("json without " ++ ", ".intercalate entry.ignore) }
      if diffs.isEmpty then { res with matched := true }
      else { res with detail := some ("JSON differs at " ++ "; ".intercalate diffs) }
    | _, _ => { res with detail := some "ignore keys are declared but a body is not JSON" }

/-! ### What the bodies say -/

/-- A JSON value, the order of the members of an object left out. -/
inductive Tree where
  | null
  | bool (value : Bool)
  | number (value : Double)
  | text (value : String)
  | array (items : List Tree)
  | object (members : String → Option Tree)

mutual
/-- A parsed value without the ignored keys at any depth. -/
def tree (ignored : List String) : Json → Tree
  | .null => .null
  | .bool value => .bool value
  | .num value => .number (ofRat value)
  | .str text => .text text
  | .arr items => .array (treeItems ignored items)
  | .obj fields => .object (treeMembers ignored (fun _ => none) fields)

def treeItems (ignored : List String) : List Json → List Tree
  | [] => []
  | item :: rest => tree ignored item :: treeItems ignored rest

def treeMembers (ignored : List String) (members : String → Option Tree) : List (String × Json) → String → Option Tree
  | [] => members
  | (name, value) :: rest =>
    treeMembers ignored
      (fun key => if key = name ∧ name ∉ ignored then some (tree ignored value) else members key) rest
end

/-- The answers are the same success, and their bodies the same JSON without the ignored keys. -/
def Agree (ignored : List String) (prod drill : Answer) : Prop :=
  prod.status = drill.status ∧ (200 ≤ prod.status ∧ prod.status < 300) ∧
    ∃ a b, jsonParse prod.body = some a ∧ jsonParse drill.body = some b ∧ tree ignored a = tree ignored b

mutual
/-- Without a number beyond the doubles, and without a key `__proto__`, except below ignored keys. -/
def Clean (ignored : List String) : Json → Prop
  | .num value => ∃ finite, ofRat value = .finite finite
  | .arr items => CleanItems ignored items
  | .obj fields => CleanFields ignored fields
  | _ => True

def CleanItems (ignored : List String) : List Json → Prop
  | [] => True
  | item :: rest => Clean ignored item ∧ CleanItems ignored rest

def CleanFields (ignored : List String) : List (String × Json) → Prop
  | [] => True
  | (name, value) :: rest => (name ∉ ignored → name ≠ "__proto__" ∧ Clean ignored value) ∧ CleanFields ignored rest
end

/-! ### Differences only grow -/

section
variable {diff : Value → Value → String → List String → List String}

theorem diffItems_grows (grows : ∀ x y p out, out <+: diff x y p out) (p : String) (i : Nat) (xs ys : List Value)
    (out : List String) : out <+: diffItems diff p i xs ys out := by
  induction xs generalizing i ys out with
  | nil => exact List.prefix_rfl
  | cons x xs ih =>
    cases ys with
    | nil => exact List.prefix_rfl
    | cons y ys => exact (grows x y _ out).trans (ih ..)

theorem diffKey_grows (grows : ∀ x y p out, out <+: diff x y p out) (a b : Value) (p k : String) (out : List String) :
    out <+: diffKey diff a b p k out := by
  unfold diffKey
  split
  · exact List.prefix_append ..
  · exact List.prefix_append ..
  · exact grows ..

theorem diffKeys_grows (grows : ∀ x y p out, out <+: diff x y p out) (a b : Value) (p : String) (ks : List String)
    (out : List String) : out <+: diffKeys diff a b p ks out := by
  induction ks generalizing out with
  | nil => exact List.prefix_rfl
  | cons k ks ih =>
    unfold diffKeys
    split
    · exact diffKey_grows grows ..
    · exact (diffKey_grows grows a b p k out).trans (ih _)

/-- Two objects show no difference where none of the keys shows one. -/
theorem diffKeys_quiet (grows : ∀ x y p out, out <+: diff x y p out) {a b : Value} {p : String} {ks out : List String}
    (few : out.length < 5) :
    diffKeys diff a b p ks out = out ↔ ∀ k ∈ ks, diffKey diff a b p k out = out := by
  induction ks with
  | nil => simp [diffKeys]
  | cons k ks ih =>
    have first := diffKey_grows grows a b p k out
    rw [List.forall_mem_cons, diffKeys]
    by_cases same : diffKey diff a b p k out = out
    · rw [same, if_neg (by omega), ih]
      simp
    · have more : ¬diffKeys diff a b p (k :: ks) out = out := by
        intro quiet
        have after : diffKey diff a b p k out <+: diffKeys diff a b p (k :: ks) out := by
          unfold diffKeys
          split
          · exact List.prefix_rfl
          · exact diffKeys_grows grows ..
        rw [quiet] at after
        exact same (first.eq_of_length (le_antisymm first.length_le after.length_le)).symm
      rw [diffKeys] at more
      simp [same, more]
end

theorem diffPaths_grows (fuel : Nat) (a b : Value) (p : String) (out : List String) : out <+: diffPaths fuel a b p out := by
  induction fuel generalizing a b p out with
  | zero => exact List.prefix_rfl
  | succ fuel ih =>
    unfold diffPaths
    split
    · exact List.prefix_rfl
    split
    · split
      · exact List.prefix_append ..
      · exact diffItems_grows ih ..
    · exact diffKeys_grows ih ..
    · split
      · exact List.prefix_rfl
      · exact List.prefix_append ..

/-! ### Stripped objects -/

theorem lookup_cons_ite {α : Type} (member : String × α) (rest : List (String × α)) (k : String) :
    (member :: rest).lookup k = if k = member.1 then some member.2 else rest.lookup k := by
  rw [List.lookup_cons]
  by_cases same : k = member.1
  · simp [same]
  · rw [beq_false_of_ne same, if_neg same]

theorem lookup_replaced {α : Type} (members : List (String × α)) (key k : String) (value : α) :
    (members.map fun member => if member.1 = key then (key, value) else member).lookup k =
      if k = key ∧ members.any (·.1 = key) then some value else members.lookup k := by
  induction members with
  | nil => simp
  | cons member rest ih =>
    rw [List.map_cons, lookup_cons_ite, ih, lookup_cons_ite, List.any_cons]
    by_cases here : member.1 = key
    · by_cases same : k = key <;> simp [here, same]
    · by_cases same : k = key
      · subst same
        rw [if_neg (Ne.symm here), if_neg here, decide_eq_false here, Bool.false_or, if_neg (Ne.symm here)]
      · simp [here, same]

theorem lookup_setMember {α : Type} (members : List (String × α)) (key k : String) (value : α) :
    (setMember members key value).lookup k = if k = key then some value else members.lookup k := by
  unfold setMember
  split
  · rename_i has
    rw [lookup_replaced, has]
    simp
  · rename_i absent
    rw [List.lookup_append, lookup_cons_ite]
    by_cases same : k = key
    · subst same
      have unset : members.lookup k = none := by
        rw [List.lookup_eq_none_iff]
        intro member among
        rw [List.any_eq_true] at absent
        exact bne_iff_ne.2 fun isKey => absent ⟨member, among, decide_eq_true isKey.symm⟩
      simp [unset]
    · simp [same]

theorem put_plain {own : List (String × Value)} {prototype value : Value} {key : String} (plain : key ≠ "__proto__") :
    put (.object own prototype) key value = .object (setMember own key value) prototype := if_neg plain

section
variable {keys : List String}

/-- The own members of a stripped object, beside what the object says. -/
def Paired (keys : List String) (own : List (String × Value)) (members : String → Option Tree) : Prop :=
  ∀ k, (own.lookup k = none ∧ members k = none) ∨
    ∃ v, Clean keys v ∧ own.lookup k = some (stripKeys keys v) ∧ members k = some (tree keys v)

theorem paired_stripFields {fields : List (String × Json)} (clean : CleanFields keys fields)
    {own : List (String × Value)} {members : String → Option Tree} (paired : Paired keys own members) :
    ∃ all, stripFields keys (.object own .objectPrototype) fields = .object all .objectPrototype ∧
      Paired keys all (treeMembers keys members fields) := by
  induction fields generalizing own members with
  | nil => exact ⟨own, rfl, paired⟩
  | cons field rest ih =>
    obtain ⟨name, value⟩ := field
    obtain ⟨here, later⟩ := clean
    by_cases ignored : name ∈ keys
    · have next := ih later paired
      simpa [stripFields, treeMembers, ignored] using next
    · obtain ⟨plain, cleanValue⟩ := here ignored
      have one : Paired keys (setMember own name (stripKeys keys value))
          (fun key => if key = name ∧ name ∉ keys then some (tree keys value) else members key) := by
        intro k
        rw [lookup_setMember]
        by_cases same : k = name
        · exact .inr ⟨value, cleanValue, by simp [same], by simp [same, ignored]⟩
        · simpa [same] using paired k
      obtain ⟨all, stripped, pairs⟩ := ih later one
      refine ⟨all, ?_, pairs⟩
      rw [stripFields, if_neg ignored, put_plain plain]
      exact stripped

theorem strip_object {fields : List (String × Json)} (clean : Clean keys (.obj fields)) :
    ∃ own, stripKeys keys (.obj fields) = .object own .objectPrototype ∧
      Paired keys own (treeMembers keys (fun _ => none) fields) :=
  paired_stripFields clean fun _ => .inl ⟨rfl, rfl⟩

theorem mem_keys {own : List (String × Value)} {k : String} : k ∈ own.map (·.1) ↔ own.lookup k ≠ none := by
  induction own with
  | nil => simp
  | cons member rest ih =>
    rw [List.map_cons, List.mem_cons, lookup_cons_ite]
    by_cases same : k = member.1
    · simp [same]
    · rw [if_neg same]
      exact (or_iff_right same).trans ih

theorem mem_ownKeys {own : List (String × Value)} {k : String} : k ∈ ownKeys own ↔ own.lookup k ≠ none := by
  rw [← mem_keys]
  unfold ownKeys
  rw [List.mem_append, List.mem_insertionSort, List.mem_filter, List.mem_filter]
  cases arrayIndex k <;> simp

theorem mem_allKeys {own others : List (String × Value)} {k : String} :
    k ∈ allKeys own others ↔ own.lookup k ≠ none ∨ others.lookup k ≠ none := by
  rw [← mem_ownKeys, ← mem_ownKeys, allKeys, List.mem_append, List.mem_filter, decide_eq_true_iff]
  tauto

theorem height_lookup {own : List (String × Value)} {k : String} {x : Value} (found : own.lookup k = some x) :
    height x ≤ heightMembers own := by
  induction own with
  | nil => cases found
  | cons member rest ih =>
    rw [List.lookup_cons] at found
    rw [heightMembers]
    split at found
    · obtain rfl := Option.some.inj found
      exact le_max_left ..
    · exact (ih found).trans (le_max_right ..)

/-! ### No difference, the same bodies -/

/-- A function is told from every value that a body has. -/
theorem function_apart {v : Json} (clean : Clean keys v) {fuel : Nat} {p : String} {out : List String}
    (few : out.length < 5) :
    diffPaths (fuel + 1) .function (stripKeys keys v) p out ≠ out ∧
      diffPaths (fuel + 1) (stripKeys keys v) .function p out ≠ out := by
  have room : ¬5 ≤ out.length := by omega
  cases v with
  | num value => cases same : ofRat value <;> simp [diffPaths, stripKeys, sameText, same, room]
  | obj fields =>
    obtain ⟨own, stripped, -⟩ := strip_object clean
    simp [diffPaths, stripped, sameText, room]
  | _ => simp [diffPaths, stripKeys, sameText, room]

/-- Two values that are not both arrays and not both objects show a difference unless they are the same. -/
theorem diff_leaf {a b : Json} (cleanA : Clean keys a) (cleanB : Clean keys b)
    (arrays : ∀ xs ys, ¬(a = .arr xs ∧ b = .arr ys)) (objects : ∀ xs ys, ¬(a = .obj xs ∧ b = .obj ys))
    {fuel : Nat} {p : String} {out : List String} (few : out.length < 5) :
    diffPaths (fuel + 1) (stripKeys keys a) (stripKeys keys b) p out = out ↔ tree keys a = tree keys b := by
  have room : ¬5 ≤ out.length := by omega
  cases a with
  | obj fields =>
    obtain ⟨own, stripped, -⟩ := strip_object cleanA
    rw [stripped]
    cases b with
    | obj others => exact absurd ⟨rfl, rfl⟩ (objects fields others)
    | num value =>
      obtain ⟨q, finite⟩ := cleanB
      simp [diffPaths, stripKeys, tree, sameText, room, finite]
    | _ => simp [diffPaths, stripKeys, tree, sameText, room]
  | num value =>
    obtain ⟨q, finite⟩ := cleanA
    cases b with
    | obj others =>
      obtain ⟨own, stripped, -⟩ := strip_object cleanB
      rw [stripped]
      simp [diffPaths, stripKeys, tree, sameText, room, finite]
    | num other =>
      obtain ⟨r, finite'⟩ := cleanB
      simp [diffPaths, stripKeys, tree, sameText, room, finite, finite']
    | _ => simp [diffPaths, stripKeys, tree, sameText, room, finite]
  | arr items =>
    cases b with
    | arr others => exact absurd ⟨rfl, rfl⟩ (arrays items others)
    | obj others =>
      obtain ⟨own, stripped, -⟩ := strip_object cleanB
      rw [stripped]
      simp [diffPaths, stripKeys, tree, sameText, room]
    | num other =>
      obtain ⟨r, finite⟩ := cleanB
      simp [diffPaths, stripKeys, tree, sameText, room, finite]
    | _ => simp [diffPaths, stripKeys, tree, sameText, room]
  | _ =>
    cases b with
    | obj others =>
      obtain ⟨own, stripped, -⟩ := strip_object cleanB
      rw [stripped]
      simp [diffPaths, stripKeys, tree, sameText, room]
    | num other =>
      obtain ⟨r, finite⟩ := cleanB
      simp [diffPaths, stripKeys, tree, sameText, room, finite]
    | _ => simp [diffPaths, stripKeys, tree, sameText, room]

theorem length_stripItems (items : List Json) : (stripItems keys items).length = items.length := by
  induction items with
  | nil => rfl
  | cons item rest ih => rw [stripItems, List.length_cons, List.length_cons, ih]

theorem length_treeItems (items : List Json) : (treeItems keys items).length = items.length := by
  induction items with
  | nil => rfl
  | cons item rest ih => rw [treeItems, List.length_cons, List.length_cons, ih]

/-- Two arrays of one length show no difference where their items show none. -/
theorem diffItems_strip {fuel : Nat} {out : List String}
    (exact' : ∀ a b p, Clean keys a → Clean keys b → height (stripKeys keys a) < fuel →
      (diffPaths fuel (stripKeys keys a) (stripKeys keys b) p out = out ↔ tree keys a = tree keys b))
    (p : String) (i : Nat) {xs ys : List Json} (same : xs.length = ys.length) (cleanX : CleanItems keys xs)
    (cleanY : CleanItems keys ys) (deep : heightItems (stripItems keys xs) < fuel) :
    diffItems (diffPaths fuel) p i (stripItems keys xs) (stripItems keys ys) out = out ↔
      treeItems keys xs = treeItems keys ys := by
  induction xs generalizing ys i with
  | nil =>
    obtain rfl := List.length_eq_zero_iff.1 same.symm
    simp [stripItems, diffItems]
  | cons x xs ih =>
    obtain ⟨y, ys, rfl⟩ := List.exists_cons_of_length_eq_add_one same.symm
    obtain ⟨hereX, laterX⟩ := cleanX
    obtain ⟨hereY, laterY⟩ := cleanY
    rw [stripItems, heightItems, max_lt_iff] at deep
    have first := exact' x y (p ++ "[" ++ toString i ++ "]") hereX hereY deep.1
    have rest := ih (i + 1) (Nat.succ.inj same) laterX laterY deep.2
    rw [stripItems, stripItems, diffItems, treeItems, treeItems, List.cons_eq_cons, ← first, ← rest]
    constructor
    · intro quiet
      have grown := diffPaths_grows fuel (stripKeys keys x) (stripKeys keys y) (p ++ "[" ++ toString i ++ "]") out
      have after := diffItems_grows (diffPaths_grows fuel) p (i + 1) (stripItems keys xs) (stripItems keys ys)
        (diffPaths fuel (stripKeys keys x) (stripKeys keys y) (p ++ "[" ++ toString i ++ "]") out)
      rw [quiet] at after
      have still := grown.eq_of_length (le_antisymm grown.length_le after.length_le)
      rw [← still] at quiet
      exact ⟨still.symm, quiet⟩
    · rintro ⟨still, quiet⟩
      rw [still, quiet]

/-- Two objects show no difference at a key where both say the same of it. -/
theorem diffKey_strip {fuel : Nat} {out : List String} (few : out.length < 5)
    (exact' : ∀ a b p, Clean keys a → Clean keys b → height (stripKeys keys a) < fuel + 1 →
      (diffPaths (fuel + 1) (stripKeys keys a) (stripKeys keys b) p out = out ↔ tree keys a = tree keys b))
    {own others : List (String × Value)} {members rest : String → Option Tree} (paired : Paired keys own members)
    (pairs : Paired keys others rest) (deep : heightMembers own < fuel + 1) {p k : String}
    (known : own.lookup k ≠ none ∨ others.lookup k ≠ none) :
    diffKey (diffPaths (fuel + 1)) (.object own .objectPrototype) (.object others .objectPrototype) p k out = out ↔
      members k = rest k := by
  have inherited : get? k .objectPrototype = none ∨ get? k .objectPrototype = some .function := by
    unfold get?
    split
    · exact .inr rfl
    · exact .inl rfl
  have more (text : String) : out ++ [text] ≠ out := by simp
  rcases paired k with ⟨unset, none'⟩ | ⟨v, cleanV, set, some'⟩
  · rcases pairs k with ⟨unset', -⟩ | ⟨w, cleanW, set', some''⟩
    · exact absurd known (by simp [unset, unset'])
    · have apart : members k ≠ rest k := by simp [none', some'']
      refine iff_of_false ?_ apart
      unfold diffKey
      rw [get?, get?, unset, set', Option.none_or]
      rcases inherited with absent | builtin
      · rw [absent]
        exact more _
      · rw [builtin]
        exact (function_apart cleanW few).1
  · have height_v : height (stripKeys keys v) < fuel + 1 := (height_lookup set).trans_lt deep
    rcases pairs k with ⟨unset', none''⟩ | ⟨w, cleanW, set', some''⟩
    · have apart : members k ≠ rest k := by simp [none'', some']
      refine iff_of_false ?_ apart
      unfold diffKey
      rw [get?, get?, set, unset', Option.none_or]
      rcases inherited with absent | builtin
      · rw [absent]
        exact more _
      · rw [builtin]
        exact (function_apart cleanV few).2
    · unfold diffKey
      rw [get?, get?, set, set', some', some'', Option.some.injEq]
      exact exact' v w _ cleanV cleanW height_v

/-- The comparison of two stripped bodies shows no difference where they are the same JSON. -/
theorem diffPaths_strip {fuel : Nat} {a b : Json} (cleanA : Clean keys a) (cleanB : Clean keys b)
    (deep : height (stripKeys keys a) < fuel) {p : String} {out : List String} (few : out.length < 5) :
    diffPaths fuel (stripKeys keys a) (stripKeys keys b) p out = out ↔ tree keys a = tree keys b := by
  induction fuel generalizing a b p with
  | zero => exact absurd deep (Nat.not_lt_zero _)
  | succ fuel ih =>
    have room : ¬5 ≤ out.length := by omega
    by_cases arrays : ∃ xs ys, a = .arr xs ∧ b = .arr ys
    · obtain ⟨xs, ys, rfl, rfl⟩ := arrays
      rw [stripKeys, stripKeys, diffPaths, if_neg room, tree, tree, Tree.array.injEq]
      rw [length_stripItems, length_stripItems]
      split
      · rename_i lengths
        have apart : treeItems keys xs ≠ treeItems keys ys := fun same => lengths (by
          rw [← @length_treeItems keys xs, same, length_treeItems])
        exact iff_of_false (by simp) apart
      · rename_i lengths
        have shallow : heightItems (stripItems keys xs) < fuel := by
          rw [stripKeys, height] at deep
          omega
        exact diffItems_strip (fun _ _ _ first second deeper => ih first second deeper) p 0 (not_not.1 lengths) cleanA cleanB shallow
    by_cases objects : ∃ xs ys, a = .obj xs ∧ b = .obj ys
    · obtain ⟨xs, ys, rfl, rfl⟩ := objects
      obtain ⟨own, stripped, paired⟩ := strip_object cleanA
      obtain ⟨others, stripped', pairs⟩ := strip_object cleanB
      rw [stripped, height] at deep
      obtain ⟨less, rfl⟩ := Nat.exists_eq_add_of_lt (show 0 < fuel by omega)
      rw [stripped, stripped', diffPaths, if_neg room, tree, tree, Tree.object.injEq,
        diffKeys_quiet (diffPaths_grows _) few, funext_iff]
      have at_key {k : String} := @diffKey_strip keys (0 + less) out few (fun _ _ _ first second deeper => ih first second deeper) own
        others _ _ paired pairs (by omega) p k
      constructor
      · intro quiet k
        by_cases known : own.lookup k ≠ none ∨ others.lookup k ≠ none
        · exact (at_key known).1 (quiet k (mem_allKeys.2 known))
        · obtain ⟨unset, unset'⟩ := not_or.1 known
          rcases paired k with ⟨-, none'⟩ | ⟨v, -, set, -⟩
          · rcases pairs k with ⟨-, none''⟩ | ⟨w, -, set', -⟩
            · rw [none', none'']
            · exact absurd (by simp [set']) unset'
          · exact absurd (by simp [set]) unset
      · intro same k among
        exact (at_key (mem_allKeys.1 among)).2 (same k)
    · exact diff_leaf cleanA cleanB (fun xs ys both => arrays ⟨xs, ys, both⟩) (fun xs ys both => objects ⟨xs, ys, both⟩) few

end

/-- A written value without numbers is read back, with the last of each repeated member. -/
theorem jsonParse_written {v : Json} (decimal : Json.Decimal v) : jsonParse (some (Json.stringify v)) = some (parsed v) := by
  rw [jsonParse, Option.bind_some, Json.parse_written v decimal, Option.map_some]

/-- What `exec.http` gives of a server that answers with a value. -/
def answered (v : Json) : Answer := { status := 200, body := some (Json.stringify v) }

def firstBody : Json := .obj [("ok", .bool true), ("at", .str "1"), ("of", .arr [.null])]

def secondBody : Json := .obj [("of", .arr [.null]), ("at", .str "2"), ("ok", .bool true)]

theorem jsonParse_bodies : jsonParse (answered firstBody).body = some firstBody ∧
    jsonParse (answered secondBody).body = some secondBody := by
  have first : Json.Decimal firstBody := by simp [firstBody, Json.Decimal, Json.DecimalFields, Json.DecimalItems]
  have second : Json.Decimal secondBody := by simp [secondBody, Json.Decimal, Json.DecimalFields, Json.DecimalItems]
  exact ⟨jsonParse_written first, jsonParse_written second⟩

def lostBody : Json := .obj [("__proto__", .obj [("x", .bool true)])]

end OpenVibeHost.Bodies
