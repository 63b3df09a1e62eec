import OpenVibeHost.DrillEnvironment
import OpenVibeHost.EnvReaders
import OpenVibeHost.Paths
import OpenVibeHost.Pieces

/-! The production environment file of a new service, `productionEnv` of `lib/commands/service-add.js`, which rewrites
the lines of the service's example. -/
namespace OpenVibeHost.ServiceAdd
open EnvFile

/-- What decides whether a name is one of several. -/
local instance lawfulNames : LawfulBEq (List Char) := inferInstance

/-! ### The public address -/

/-- The origin that the inventory states, as `httpsOrigin` leaves it. -/
structure Origin where
  text : List Char
  begins : "https://".toList <+: text
  solid : ∀ c ∈ text, space c = false

/-- What `service add` reads of the service. -/
structure Service where
  port : Nat
  vhost : Option (List Char)
  origin : Option Origin

/-- The host of a vhost `<host>.conf`, in letters of either case. -/
def confHost (vhost : List Char) : Option (List Char) :=
  let host := vhost.take (vhost.length - 5)
  if folded (vhost.drop (vhost.length - 5)) = ".CONF".toList ∧ host ≠ [] ∧
      host.all (fun c => c.isAlphanum || c = '.' || c = '-') then some host
  else none

/-- `[^\s'"/]`. -/
def hostChar (c : Char) : Bool := !space c && c ≠ '\'' && c ≠ '"' && c ≠ '/'

def unquote : List Char → List Char
  | [] => []
  | c :: rest => if c = '"' ∨ c = '\'' then rest else c :: rest

/-- `\s*['"]?(https:\/\/[^\s'"/]+)`. What is left of the expression always matches. -/
def urlAfter (value : List Char) : Option (List Char) :=
  (after? "https://".toList (unquote (value.dropWhile space))).bind fun rest =>
    if rest.takeWhile hostChar = [] then none else some ("https://".toList ++ rest.takeWhile hostChar)

/-- The address at the beginning of a line, `\s*BASE_URL\s*=` and what follows. -/
def urlAt (text : List Char) : Option (List Char) :=
  (after? "BASE_URL".toList (text.dropWhile space)).bind fun rest =>
    match rest.dropWhile space with
    | '=' :: value => urlAfter value
    | _ => none

/-- The first match from here on, `^` being where a line begins. -/
def urlFrom (begins : Bool) : List Char → Option (List Char)
  | [] => none
  | c :: rest =>
    if begins then (urlAt (c :: rest)).or (urlFrom (terminator c) rest) else urlFrom (terminator c) rest

/-- The address that an example states. -/
def urlIn (text : List Char) : Option (List Char) := urlFrom true text

/-- The address that the inventory states. -/
def stated (svc : Service) : Option (List Char) :=
  ((svc.vhost.bind confHost).map ("https://".toList ++ ·)).or (svc.origin.map (·.text))

def baseUrl (svc : Service) (sample : List Char) : Option (List Char) := (stated svc).or (urlIn sample)

/-! ### The lines -/

/-- One `\r` less at the end of a line. -/
def stripCr (line : List Char) : List Char := if line.getLast? = some '\r' then line.dropLast else line

/-- `text.split(/\r?\n/)`. -/
def splitLines (text : List Char) : List (List Char) :=
  (lines text).dropLast.map stripCr ++ (lines text).getLast?.toList

/-- The name before `\s*=`, after `^\s*`. -/
def target (line : List Char) : Option (List Char) :=
  match line.dropWhile space with
  | [] => none
  | c :: rest =>
    if nameStart c then
      match (rest.dropWhile nameChar).dropWhile space with
      | '=' :: _ => some (c :: rest.takeWhile nameChar)
      | _ => none
    else none

/-- The name that a line assigns. -/
def assigned (line : List Char) : Option (List Char) := ((exported line).bind target).or (target line)

/-- What `values` is made of. -/
def productionValues (sample : List Char) (svc : Service) : List (List Char × List Char) :=
  [("NODE_ENV".toList, "production".toList), ("HOST".toList, "127.0.0.1".toList),
      ("PORT".toList, Nat.toDigits 10 svc.port)] ++
    (baseUrl svc sample).toList.map fun url => ("BASE_URL".toList, url)

/-- What every object has of a name, as text. -/
def inherited (name : List Char) : Option (List Char) :=
  if name ∈ Drill.objectNames.map String.toList then
    some (if name = "__proto__".toList then "[object Object]".toList
      else "function ".toList ++ (if name = "constructor".toList then "Object".toList else name) ++
        "() \x7b [native code] \x7d".toList)
  else none

/-- `values[name]`, where `name in values`. -/
def property (values : List (List Char × List Char)) (name : List Char) : Option (List Char) :=
  (get values name).or (inherited name)

def entry (name value : List Char) : List Char := name ++ '=' :: value

def rewrite (values : List (List Char × List Char)) (line : List Char) : List Char :=
  match assigned line with
  | none => line
  | some name =>
    match property values name with
    | none => line
    | some value => entry name value

/-- The entries that no line was rewritten to. -/
def missing (values : List (List Char × List Char)) (ls : List (List Char)) : List (List Char) :=
  (values.filter fun (name, _) => some name ∉ ls.map assigned).map fun (name, value) => entry name value

/-- `text.replace(/\n*$/, '\n')`. -/
def endLine (text : List Char) : List Char := text.rdropWhile (· = '\n') ++ ['\n']

def productionEnv (sample : List Char) (svc : Service) : List Char :=
  let values := productionValues sample svc
  let ls := splitLines sample
  endLine (['\n'].intercalate (ls.map (rewrite values) ++ missing values ls))

/-! ### What is asked of the text -/

/-- The names that are set. -/
def own (sample : List Char) (svc : Service) : List (List Char) := (productionValues sample svc).map (·.1)

/-- A line with something on it that is not about a name that is set. -/
def other (sample : List Char) (svc : Service) (line : List Char) : Bool :=
  decide (line ≠ []) && !(assigned line).any (· ∈ own sample svc)

/-- `parseEnv` of `lib/announce.js`, for every name. -/
def parseEnv (text : List Char) : List (List Char × List Char) :=
  (lines text).foldl (fun out line =>
    match lineRe line with
    | some (name, value) => setKey out name (valueOf value)
    | none => out) []

/-- The readers find the production values, the other lines are as they were, and a second time changes nothing. -/
structure Meets (sample : List Char) (svc : Service) : Prop where
  values : ∀ name value, (name, value) ∈ productionValues sample svc →
    get (parseEnv (productionEnv sample svc)) name = some value ∧
      get (Media.parseEnv (productionEnv sample svc)) name = some value
  kept : (lines (productionEnv sample svc)).filter (other sample svc) = (splitLines sample).filter (other sample svc)
  fixed : productionEnv (productionEnv sample svc) svc = productionEnv sample svc

/-- Each of the lines ended. -/
def ended (ls : List (List Char)) : List Char := ls.flatMap (· ++ ['\n'])

/-- The line as a comment when it is about a name that is set. -/
def comment (sample : List Char) (svc : Service) (line : List Char) : List Char :=
  if (assigned line).any (· ∈ own sample svc) then ['#'] else line

/-- A line that sets the address, where one is set. -/
def address (sample : List Char) (svc : Service) (line : List Char) : Bool :=
  decide (assigned line = some "BASE_URL".toList) && decide ("BASE_URL".toList ∈ own sample svc)

/-- The lines before the first that sets the address, without those about the other names that are set. -/
def commented (sample : List Char) (svc : Service) : List Char :=
  ended (((splitLines sample).takeWhile fun line => !address sample svc line).map (comment sample svc))

/-- No line assigns a name that every object has, unless already to the text that stands for it. -/
def NoInherited (sample : List Char) : Prop :=
  ∀ line ∈ splitLines sample, ∀ name text, assigned line = some name → inherited name = some text → line = entry name text

/-- No line that stays has a carriage return at its end. -/
def NoCr (sample : List Char) (svc : Service) : Prop :=
  ∀ line ∈ splitLines sample, (assigned line).any (· ∈ own sample svc) = false → line.getLast? ≠ some '\r'

/-- An address that is read from the example is the one that is read without the lines about the other names, up to the
first that sets it. -/
def SameAddress (sample : List Char) (svc : Service) : Prop :=
  stated svc = none → ∀ url, urlIn (commented sample svc) = some url → urlIn sample = some url

/-! ### Texts of ended lines -/

theorem ended_append (a b : List (List Char)) : ended (a ++ b) = ended a ++ ended b := List.flatMap_append

@[simp] theorem ended_cons (line : List Char) (rest : List (List Char)) :
    ended (line :: rest) = line ++ '\n' :: ended rest := by
  simp [ended]

theorem intercalate_ended {ls : List (List Char)} (some_line : ls ≠ []) : ['\n'].intercalate ls ++ ['\n'] = ended ls := by
  induction ls with
  | nil => exact absurd rfl some_line
  | cons line rest ih =>
    cases rest with
    | nil => simp [ended]
    | cons next rest =>
      rw [List.intercalate_cons_cons, ended_cons, ← ih (List.cons_ne_nil _ _)]
      simp

theorem intercalate_snoc (ls : List (List Char)) (line : List Char) :
    ['\n'].intercalate (ls ++ [line]) = ended ls ++ line := by
  have whole : ['\n'].intercalate (ls ++ [line]) ++ ['\n'] = ended ls ++ line ++ ['\n'] := by
    rw [intercalate_ended (by simp), ended_append]
    simp [ended]
  exact List.append_cancel_right whole

theorem lines_ended {ls : List (List Char)} (plain : ∀ line ∈ ls, '\n' ∉ line) : lines (ended ls) = ls ++ [[]] := by
  rw [lines, show ended ls = ['\n'].intercalate (ls ++ [[]]) by simp [intercalate_snoc]]
  refine List.splitOn_intercalate '\n' (fun line among => ?_) (by simp)
  rcases List.mem_append.1 among with inside | last
  · exact plain line inside
  · simp [List.mem_singleton.1 last]

/-- The lines up to the last that is not empty. -/
def packed (ls : List (List Char)) : List (List Char) := ls.rdropWhile (· = [])

theorem packed_blanks (ls : List (List Char)) : ∃ k, ls = packed ls ++ List.replicate k [] := by
  refine ⟨(ls.rtakeWhile (· = [])).length, ?_⟩
  have blank : ls.rtakeWhile (· = []) = List.replicate (ls.rtakeWhile (· = [])).length [] :=
    List.eq_replicate_iff.2 ⟨rfl, fun line among => by simpa using List.mem_rtakeWhile_imp among⟩
  rw [← blank]
  exact List.rdropWhile_append_rtakeWhile.symm

theorem packed_snoc {ls : List (List Char)} {line : List Char} (some_text : line ≠ []) :
    packed (ls ++ [line]) = ls ++ [line] := by
  simp [packed, some_text]

/-- The text ends its lines up to the last that is not empty. -/
theorem endLine_intercalate {ls : List (List Char)} (plain : ∀ line ∈ ls, '\n' ∉ line)
    (some_text : ∃ line ∈ ls, line ≠ []) : endLine (['\n'].intercalate ls) = ended (packed ls) := by
  induction ls using List.reverseRecOn with
  | nil => simp at some_text
  | append_singleton ls line ih =>
    rw [intercalate_snoc]
    by_cases blank : line = []
    · subst blank
      have earlier : ∃ line ∈ ls, line ≠ [] := by simpa using some_text
      have some_line : ls ≠ [] := by
        rintro rfl
        simp at earlier
      have same : packed (ls ++ [[]]) = packed ls := by simp [packed]
      rw [List.append_nil, ← intercalate_ended some_line, endLine, List.rdropWhile_concat_pos _ _ _ (by simp), same]
      exact ih (fun line among => plain line (List.mem_append_left _ among)) earlier
    · obtain ⟨before, c, rfl⟩ := List.eq_nil_or_concat line |>.resolve_left blank
      have black : c ≠ '\n' := by
        rintro rfl
        exact plain _ (List.mem_append_right _ (List.mem_singleton_self _)) (by simp)
      rw [packed_snoc blank, List.concat_eq_append, ← List.append_assoc, endLine,
        List.rdropWhile_concat_neg _ _ _ (by simpa using black), ended_append]
      simp [ended]

/-! ### The names of lines -/

def identifier : List Char → Bool
  | [] => false
  | c :: rest => nameStart c && rest.all nameChar

theorem space_outer {c : Char} (named : nameChar c = true) : space c = false := by
  by_contra white
  exact absurd (space_name (by simpa using white)) (by simp [named])

theorem space_start {c : Char} (letter : nameStart c = true) : space c = false := by
  refine space_outer ?_
  simp only [nameStart, nameChar, Char.isAlphanum, Bool.or_eq_true] at letter ⊢
  tauto

theorem export_name {c : Char} (white : space c = true) (text : List Char) :
    ('x' :: 'p' :: 'o' :: 'r' :: 't' :: c :: text).dropWhile nameChar = c :: text := by
  have letters : ['x', 'p', 'o', 'r', 't'].all nameChar = true := by decide
  exact (@taken_until nameChar _ (c :: text) letters (by simp [space_name white])).2

theorem assigned_entry {name value : List Char} (ident : identifier name = true) :
    assigned (entry name value) = some name := by
  cases name with
  | nil => cases ident
  | cons c rest =>
    obtain ⟨letter, more⟩ := Bool.and_eq_true_iff.1 ident
    have begun : (entry (c :: rest) value).dropWhile space = c :: (rest ++ '=' :: value) := by
      simp [entry, space_start letter]
    have cut := @taken_until nameChar rest ('=' :: value) more (by simp [show nameChar '=' = false by decide])
    have alone : exported (entry (c :: rest) value) = none := by
      unfold exported
      rw [begun]
      split
      · rename_i d text same
        -- the name goes on at least as far as `export` does, so that no white space comes next
        refine if_neg fun white => ?_
        have after := congrArg (List.dropWhile nameChar) (List.cons.inj same).2
        rw [cut.2] at after
        have sign := (export_name white text).symm.trans after.symm
        obtain rfl := (List.cons.inj sign).1
        exact absurd white (by decide)
      · rfl
    rw [assigned, alone, Option.bind_none, Option.none_or, target, begun]
    dsimp only
    rw [if_pos letter, cut.2, cut.1]
    simp [show space '=' = false by decide]

theorem target_of_assignment {line name value : List Char} (taken : assignment line = some (name, value)) :
    target line = some name := by
  unfold assignment at taken
  split at taken
  · cases taken
  · rename_i c rest begun
    split at taken
    · rename_i letter
      split at taken
      · rename_i value sign
        split at taken
        · cases taken
        · cases taken
          rw [target, begun]
          dsimp only
          rw [if_pos letter, sign]
          rfl
      · cases taken
    · cases taken

/-- A line that a reader takes is about the name that it is taken for. -/
theorem assigned_of_read {line name value : List Char} (taken : lineRe line = some (name, value)) :
    assigned line = some name := by
  rw [lineRe] at taken
  rw [assigned]
  cases isExported : exported line with
  | none =>
    rw [isExported] at taken
    exact target_of_assignment taken
  | some rest =>
    rw [isExported, Option.bind_some] at taken
    rw [Option.bind_some]
    cases inner : assignment rest with
    | some found =>
      rw [inner, Option.some_or] at taken
      cases taken
      rw [target_of_assignment inner, Option.some_or]
    | none =>
      rw [inner, Option.none_or] at taken
      have named := target_of_assignment taken
      have alone : target rest = none := by
        unfold exported at isExported
        split at isExported
        · rename_i c text begun
          split at isExported
          · rename_i white
            cases isExported
            unfold target at named ⊢
            rw [begun] at named
            simp only [show nameStart 'e' = true by decide, if_true, export_name white, List.dropWhile_cons_of_pos white]
              at named
            split at named
            · rename_i sign
              rw [sign]
              rfl
            · cases named
          · cases isExported
        · cases isExported
      rw [alone, named, Option.none_or]

theorem assigned_of_media {line name value : List Char} (taken : Media.lineRe line = some (name, value)) :
    assigned line = some name := by
  obtain ⟨before, c, rest, between, raw, spelled, rfl, -⟩ := spelled_of_media taken
  have letters : rest.all nameChar = true :=
    List.all_eq_true.2 fun d among => nameChar_of_upper (List.all_eq_true.1 spelled.rest d among)
  have name := taken_until letters (spelled.next (fun _ => space_name) (by decide))
  have sign := @taken_until space between ('=' :: raw) spelled.between (by simp [show space '=' = false by decide])
  have first : nameStart c = true := by
    have upper := spelled.start
    simp only [Media.upperStart, nameStart, Char.isAlpha, Bool.or_eq_true] at upper ⊢
    tauto
  rw [assigned, spelled.alone, Option.bind_none, Option.none_or, target, spelled.begun]
  dsimp only
  rw [if_pos first, name.2, sign.2, name.1]
  rfl

/-! ### The values -/

/-- A value that readers leave as it is. -/
structure Bare (value : List Char) : Prop where
  solid : ∀ c ∈ value, space c = false
  opens : ∀ c ∈ value.head?, c ≠ '"' ∧ c ≠ '\''
  some_text : value ≠ []

theorem uncomment_solid {value : List Char} (solid : ∀ c ∈ value, space c = false) : uncomment value = value := by
  unfold uncomment
  induction value with
  | nil => rfl
  | cons c rest ih =>
    simp [uncommentFrom, solid c (List.mem_cons_self ..), ih fun d among => solid d (List.mem_cons_of_mem _ among)]

theorem Bare.read {value : List Char} (bare : Bare value) : valueOf value = value := by
  have kept : trim value = value := by
    have front : value.dropWhile space = value := List.dropWhile_eq_self_iff.2 fun long => by
      simp [bare.solid _ (List.getElem_mem long)]
    rw [trim, front, List.dropWhile_eq_self_iff.2, List.reverse_reverse]
    intro long
    simpa using bare.solid _ (List.mem_reverse.1 (List.getElem_mem long))
  obtain ⟨c, rest, rfl⟩ := List.exists_cons_of_ne_nil bare.some_text
  have plain := bare.opens c rfl
  rw [valueOf, kept]
  simp [not_quoted plain.1 plain.2, uncomment_solid bare.solid]

theorem Bare.line {value : List Char} (bare : Bare value) : value.any terminator = false := by
  refine List.any_eq_false.2 fun c among broken => ?_
  have solid := bare.solid c among
  simp only [terminator, Bool.or_eq_true, decide_eq_true_eq] at broken
  rcases broken with ((rfl | rfl) | rfl) | rfl <;> exact absurd solid (by decide)

theorem bare_literal {c : Char} {rest : List Char} (solid : (c :: rest).all (fun c => !space c) = true)
    (opens : c ≠ '"' ∧ c ≠ '\'') : Bare (c :: rest) where
  solid d among := by simpa using List.all_eq_true.1 solid d among
  opens d first := Option.some.inj first ▸ opens
  some_text := List.cons_ne_nil _ _

/-- A text that begins as an address of the web does. -/
theorem bare_of_address {rest : List Char} (solid : ∀ c ∈ rest, space c = false) : Bare ("https://".toList ++ rest) := by
  refine bare_literal (List.all_eq_true.2 fun c among => ?_) (by decide)
  rcases List.mem_append.1 (show c ∈ "https://".toList ++ rest from among) with inside | later
  · exact List.all_eq_true.1 (show "https://".toList.all (fun c => !space c) = true by decide) c inside
  · simp [solid c later]

theorem space_host {c : Char} (among : hostChar c = true) : space c = false := by
  simp only [hostChar, Bool.and_eq_true, Bool.not_eq_true'] at among
  exact among.1.1.1

theorem urlAt_shape {text url : List Char} (found : urlAt text = some url) :
    ∃ host, url = "https://".toList ++ host ∧ host ≠ [] ∧ host.all hostChar = true := by
  obtain ⟨rest, -, found⟩ := Option.bind_eq_some_iff.1 found
  split at found
  · obtain ⟨after, -, found⟩ := Option.bind_eq_some_iff.1 found
    split at found
    · cases found
    · rename_i some_host
      cases found
      exact ⟨_, rfl, some_host, List.all_takeWhile⟩
  · cases found

theorem urlFrom_shape {text url : List Char} {begins : Bool} (found : urlFrom begins text = some url) :
    ∃ host, url = "https://".toList ++ host ∧ host ≠ [] ∧ host.all hostChar = true := by
  induction text generalizing begins with
  | nil => cases found
  | cons c rest ih =>
    rw [urlFrom] at found
    split at found
    · rcases Option.or_eq_some_iff.1 found with here | ⟨-, later⟩
      · exact urlAt_shape here
      · exact ih later
    · exact ih found

theorem baseUrl_bare {svc : Service} {sample url : List Char} (found : baseUrl svc sample = some url) : Bare url := by
  rcases Option.or_eq_some_iff.1 found with isStated | ⟨-, read⟩
  · rcases Option.or_eq_some_iff.1 isStated with ofVhost | ⟨-, ofOrigin⟩
    · obtain ⟨host, isHost, rfl⟩ := Option.map_eq_some_iff.1 ofVhost
      obtain ⟨vhost, -, made⟩ := Option.bind_eq_some_iff.1 isHost
      unfold confHost at made
      dsimp only at made
      split at made
      · rename_i fits
        cases made
        refine bare_of_address fun c among => ?_
        have plain := List.all_eq_true.1 fits.2.2 c among
        simp only [Bool.or_eq_true, decide_eq_true_eq] at plain
        rcases plain with (letter | rfl) | rfl
        · exact space_outer (by simp [nameChar, letter])
        · decide
        · decide
      · cases made
    · obtain ⟨origin, -, rfl⟩ := Option.map_eq_some_iff.1 ofOrigin
      obtain ⟨rest, isText⟩ := origin.begins
      rw [← isText]
      exact bare_of_address fun c among => origin.solid c (isText ▸ List.mem_append_right _ among)
  · obtain ⟨host, rfl, -, plain⟩ := urlFrom_shape read
    exact bare_of_address fun c among => space_host (List.all_eq_true.1 plain c among)

theorem port_bare (port : Nat) : Bare (Nat.toDigits 10 port) where
  solid c among := space_outer (by
    simp [nameChar, Char.isAlphanum, Nat.isDigit_of_mem_toDigits (by decide) (by decide) among])
  opens c first := by
    have digit := Nat.isDigit_of_mem_toDigits (by decide) (by decide) (List.mem_of_mem_head? first)
    constructor <;> rintro rfl <;> exact absurd digit (by decide)
  some_text := Nat.toDigits_ne_nil

variable {sample : List Char} {svc : Service} {name value : List Char}

/-- What is set, one by one. -/
theorem mem_values : (name, value) ∈ productionValues sample svc ↔
    (name = "NODE_ENV".toList ∧ value = "production".toList) ∨ (name = "HOST".toList ∧ value = "127.0.0.1".toList) ∨
      (name = "PORT".toList ∧ value = Nat.toDigits 10 svc.port) ∨
      (name = "BASE_URL".toList ∧ baseUrl svc sample = some value) := by
  simp only [productionValues, List.mem_append, List.mem_cons, List.not_mem_nil, or_false, or_assoc, Prod.mk.injEq,
    List.mem_map, Option.mem_toList]
  refine or_congr_right (or_congr_right (or_congr_right ⟨?_, ?_⟩))
  · rintro ⟨url, found, isName, rfl⟩
    exact ⟨isName.symm, found⟩
  · rintro ⟨isName, found⟩
    exact ⟨value, found, isName.symm, rfl⟩

theorem value_bare (among : (name, value) ∈ productionValues sample svc) : Bare value := by
  rcases mem_values.1 among with ⟨-, rfl⟩ | ⟨-, rfl⟩ | ⟨-, rfl⟩ | ⟨-, found⟩
  · exact bare_literal (show ('p' :: "roduction".toList).all (fun c => !space c) = true by decide) (by decide)
  · exact bare_literal (show ('1' :: "27.0.0.1".toList).all (fun c => !space c) = true by decide) (by decide)
  · exact port_bare svc.port
  · exact baseUrl_bare found

/-- The names that can be set. -/
def settable : List (List Char) := ["NODE_ENV", "HOST", "PORT", "BASE_URL"].map String.toList

theorem own_settable (set : name ∈ own sample svc) : name ∈ settable := by
  obtain ⟨entry, among, rfl⟩ := List.mem_map.1 set
  simp only [settable, List.map_cons, List.map_nil, List.mem_cons, List.not_mem_nil, or_false]
  rcases mem_values.1 among with ⟨isName, -⟩ | ⟨isName, -⟩ | ⟨isName, -⟩ | ⟨isName, -⟩
  · exact .inl isName
  · exact .inr (.inl isName)
  · exact .inr (.inr (.inl isName))
  · exact .inr (.inr (.inr isName))

theorem mem_own (set : (name, value) ∈ productionValues sample svc) : name ∈ own sample svc :=
  List.mem_map.2 ⟨_, set, rfl⟩

theorem settable_upper : settable.all (fun
    | [] => false
    | c :: rest => Media.upperStart c && rest.all Media.upperChar) = true := by decide

theorem settable_identifier : settable.all identifier = true := by decide

theorem settable_alone : settable.all (fun name => inherited name = none) = true := by decide

theorem inherited_identifier : (Drill.objectNames.map String.toList).all identifier = true := by decide

/-- A production line is one that both readers take. -/
theorem entry_spelled (set : name ∈ settable) (value : List Char) :
    ∃ c rest, name = c :: rest ∧ Spelled (entry name value) [] c rest [] value := by
  have upper := List.all_eq_true.1 settable_upper name set
  split at upper
  · cases upper
  · rename_i c rest
    obtain ⟨start, others⟩ := Bool.and_eq_true_iff.1 upper
    exact ⟨c, rest, rfl, ⟨by simp [entry], rfl, start, others, rfl⟩⟩

theorem own_nodup (sample : List Char) (svc : Service) : (own sample svc).Nodup := by
  have whole : settable.Nodup := by decide
  refine whole.sublist ?_
  rw [own, productionValues]
  cases baseUrl svc sample with
  | none => exact List.sublist_append_left (settable.take 3) _
  | some url => exact List.Sublist.refl _

theorem get_of_nodup {β : Type} {entries : List (List Char × β)} {name : List Char} {value : β}
    (alone : (entries.map (·.1)).Nodup) (among : (name, value) ∈ entries) : get entries name = some value := by
  unfold EnvFile.get
  induction entries with
  | nil => cases among
  | cons entry rest ih =>
    obtain ⟨fresh, alone⟩ := List.nodup_cons.1 alone
    rcases List.mem_cons.1 among with rfl | later
    · simp
    · have apart : entry.1 ≠ name := by
        rintro rfl
        exact fresh (List.mem_map.2 ⟨_, later, rfl⟩)
      rw [List.find?_cons_of_neg (by simpa using apart)]
      exact ih alone later

theorem get_none {β : Type} {entries : List (List Char × β)} {name : List Char} (absent : name ∉ entries.map (·.1)) :
    get entries name = none := by
  rw [EnvFile.get, Option.map_eq_none_iff, List.find?_eq_none]
  intro entry among same
  exact absent (List.mem_map.2 ⟨entry, among, by simpa using same⟩)

/-! ### The lines that come out -/

theorem rewrite_own {line : List Char} (set : (name, value) ∈ productionValues sample svc)
    (isName : assigned line = some name) : rewrite (productionValues sample svc) line = entry name value := by
  have found := get_of_nodup (own_nodup sample svc) set
  simp [rewrite, isName, property, found]

/-- A line about a name that is set, and the value. -/
theorem exists_own {line : List Char} (isOwn : (assigned line).any (· ∈ own sample svc) = true) :
    ∃ name value, assigned line = some name ∧ (name, value) ∈ productionValues sample svc := by
  obtain ⟨name, isName, set⟩ := (Option.any_eq_true _ _).1 isOwn
  obtain ⟨⟨_, value⟩, among, rfl⟩ := List.mem_map.1 (of_decide_eq_true set)
  exact ⟨_, value, isName, among⟩

theorem rewrite_other {line : List Char} (isOther : (assigned line).any (· ∈ own sample svc) = false)
    (plain : ∀ name text, assigned line = some name → inherited name = some text → line = entry name text) :
    rewrite (productionValues sample svc) line = line := by
  unfold rewrite
  split
  · rfl
  · rename_i name isName
    have absent : name ∉ own sample svc := by simpa [isName] using isOther
    rw [property, get_none absent, Option.none_or]
    split
    · rfl
    · rename_i text isText
      exact (plain name text isName isText).symm

/-- The lines of the file before it is ended. -/
def body (sample : List Char) (svc : Service) : List (List Char) :=
  (splitLines sample).map (rewrite (productionValues sample svc)) ++
    missing (productionValues sample svc) (splitLines sample)

theorem stripCr_begins (line : List Char) : stripCr line <+: line := by
  unfold stripCr
  split
  · exact List.dropLast_prefix line
  · exact List.prefix_rfl

theorem splitLines_plain {text line : List Char} (among : line ∈ splitLines text) : '\n' ∉ line := by
  rcases List.mem_append.1 among with inside | last
  · obtain ⟨whole, within, rfl⟩ := List.mem_map.1 inside
    exact fun broken => splitOn_plain (List.mem_of_mem_dropLast within) ((stripCr_begins whole).subset broken)
  · exact splitOn_plain (List.mem_of_getLast? (Option.mem_toList.1 last))

theorem identifier_plain (ident : identifier name = true) : '\n' ∉ name := by
  intro broken
  cases name with
  | nil => cases ident
  | cons c rest =>
    obtain ⟨letter, more⟩ := Bool.and_eq_true_iff.1 ident
    rcases List.mem_cons.1 broken with rfl | later
    · exact absurd letter (by decide)
    · exact absurd (List.all_eq_true.1 more _ later) (by decide)

/-- The texts of what every object has are on one line. -/
theorem inherited_plain : (Drill.objectNames.map String.toList).all (fun name =>
    (inherited name).all fun text => decide ('\n' ∉ text) && decide (text.getLast? ≠ some '\r')) = true := by decide

/-- An entry is a line about its name. -/
theorem entry_line (ident : identifier name = true) (plain : '\n' ∉ value) (ends : value.getLast? ≠ some '\r') :
    assigned (entry name value) = some name ∧ '\n' ∉ entry name value ∧ (entry name value).getLast? ≠ some '\r' := by
  refine ⟨assigned_entry ident, fun broken => ?_, fun last => ?_⟩
  · rcases List.mem_append.1 broken with inName | inValue
    · exact identifier_plain ident inName
    · rcases List.mem_cons.1 inValue with sign | inValue
      · exact absurd sign (by decide)
      · exact plain inValue
  · rw [entry, List.getLast?_append_of_ne_nil _ (List.cons_ne_nil _ _)] at last
    cases value with
    | nil => exact absurd last (by decide)
    | cons c rest =>
      rw [List.getLast?_cons_cons] at last
      exact ends last

theorem own_entry (set : (name, value) ∈ productionValues sample svc) :
    assigned (entry name value) = some name ∧ '\n' ∉ entry name value ∧ (entry name value).getLast? ≠ some '\r' := by
  have known := own_settable (mem_own set)
  have solid := (value_bare set).solid
  refine entry_line (List.all_eq_true.1 settable_identifier name known) (fun broken => ?_) fun last => ?_
  · exact absurd (solid _ broken) (by decide)
  · exact absurd (solid _ (List.mem_of_getLast? last)) (by decide)

theorem inherited_entry {text : List Char} (isText : inherited name = some text) :
    assigned (entry name text) = some name ∧ '\n' ∉ entry name text ∧ (entry name text).getLast? ≠ some '\r' := by
  have known : name ∈ Drill.objectNames.map String.toList := by
    unfold inherited at isText
    split at isText
    · assumption
    · cases isText
  have plain := List.all_eq_true.1 inherited_plain name known
  rw [isText] at plain
  simp only [Option.all_some, Bool.and_eq_true, decide_eq_true_eq] at plain
  exact entry_line (List.all_eq_true.1 inherited_identifier name known) plain.1 plain.2

/-- What a rewritten line is. -/
theorem rewrite_cases (sample : List Char) (svc : Service) (line : List Char) :
    rewrite (productionValues sample svc) line = line ∨ ∃ name value, assigned line = some name ∧
      rewrite (productionValues sample svc) line = entry name value ∧
      ((name, value) ∈ productionValues sample svc ∨ (name ∉ own sample svc ∧ inherited name = some value)) := by
  by_cases isOwn : (assigned line).any (· ∈ own sample svc) = true
  · obtain ⟨name, value, isName, set⟩ := exists_own isOwn
    exact .inr ⟨name, value, isName, rewrite_own set isName, .inl set⟩
  · unfold rewrite
    cases isName : assigned line with
    | none => exact .inl rfl
    | some name =>
      have absent : name ∉ own sample svc := by simpa [isName] using isOwn
      dsimp only
      rw [property, get_none absent, Option.none_or]
      cases isText : inherited name with
      | none => exact .inl rfl
      | some text => exact .inr ⟨name, text, rfl, rfl, .inr ⟨absent, isText⟩⟩

/-- A rewritten line is about the same name, on one line. -/
theorem rewrite_assigned (sample : List Char) (svc : Service) (line : List Char) :
    assigned (rewrite (productionValues sample svc) line) = assigned line := by
  rcases rewrite_cases sample svc line with same | ⟨name, value, isName, made, set | ⟨-, isText⟩⟩
  · rw [same]
  · rw [made, isName, (own_entry set).1]
  · rw [made, isName, (inherited_entry isText).1]

theorem body_plain {line : List Char} (among : line ∈ body sample svc) : '\n' ∉ line := by
  rcases List.mem_append.1 among with inside | last
  · obtain ⟨old, within, rfl⟩ := List.mem_map.1 inside
    rcases rewrite_cases sample svc old with same | ⟨name, value, -, made, set | ⟨-, isText⟩⟩
    · rw [same]
      exact splitLines_plain within
    · rw [made]
      exact (own_entry set).2.1
    · rw [made]
      exact (inherited_entry isText).2.1
  · obtain ⟨⟨name, value⟩, within, rfl⟩ := List.mem_map.1 last
    exact (own_entry (List.mem_filter.1 within).1).2.1

/-- There is a line for everything that is set. -/
theorem entry_mem (set : (name, value) ∈ productionValues sample svc) : entry name value ∈ body sample svc := by
  by_cases there : some name ∈ (splitLines sample).map assigned
  · obtain ⟨line, among, isName⟩ := List.mem_map.1 there
    exact List.mem_append_left _ (List.mem_map.2 ⟨line, among, rewrite_own set isName⟩)
  · exact List.mem_append_right _ (List.mem_map.2 ⟨(name, value), List.mem_filter.2 ⟨set, by simpa using there⟩, rfl⟩)

theorem productionEnv_eq (sample : List Char) (svc : Service) :
    productionEnv sample svc = ended (packed (body sample svc)) := by
  refine endLine_intercalate (fun line => body_plain) ⟨_, entry_mem (mem_values.2 (.inl ⟨rfl, rfl⟩)), ?_⟩
  simp [entry]

theorem mem_packed {ls : List (List Char)} {line : List Char} : line ∈ packed ls → line ∈ ls :=
  fun among => (List.rdropWhile_prefix _ ls).subset among

theorem mem_packed_of {ls : List (List Char)} {line : List Char} (among : line ∈ ls) (some_text : line ≠ []) :
    line ∈ packed ls := by
  obtain ⟨k, same⟩ := packed_blanks ls
  rw [same] at among
  exact (List.mem_append.1 among).resolve_right fun blank => some_text (List.eq_of_mem_replicate blank)

theorem lines_productionEnv (sample : List Char) (svc : Service) :
    lines (productionEnv sample svc) = packed (body sample svc) ++ [[]] := by
  rw [productionEnv_eq, lines_ended fun line among => body_plain (mem_packed among)]

/-! ### What the readers find -/

/-- A line of the file about a name that is set has the value. -/
theorem body_own {line : List Char} (set : (name, value) ∈ productionValues sample svc) (among : line ∈ body sample svc)
    (isName : assigned line = some name) : line = entry name value := by
  rcases List.mem_append.1 among with inside | last
  · obtain ⟨old, -, rfl⟩ := List.mem_map.1 inside
    rw [rewrite_assigned] at isName
    exact rewrite_own set isName
  · obtain ⟨⟨key, text⟩, within, rfl⟩ := List.mem_map.1 last
    have kept := (List.mem_filter.1 within).1
    obtain rfl := Option.some.inj ((own_entry kept).1.symm.trans isName)
    have alone := own_nodup sample svc
    rw [Option.some.inj ((get_of_nodup alone set).symm.trans (get_of_nodup alone kept))]

theorem lastValue_of {re : List Char → Option (List Char × List Char)} {ls : List (List Char)} {line : List Char}
    (among : line ∈ ls) (here : valueFor re name line = some value)
    (same : ∀ line ∈ ls, ∀ found, valueFor re name line = some found → found = value) :
    lastValue re name ls = some value := by
  cases last : lastValue re name ls with
  | none =>
    have missed := List.findSome?_eq_none_iff.1 last line (List.mem_reverse.2 among)
    rw [here] at missed
    cases missed
  | some found =>
    obtain ⟨line, among, isValue⟩ := List.exists_of_findSome?_eq_some last
    rw [same line (List.mem_reverse.1 among) found isValue]

/-- A reader that takes entries, and lines only for the names that they are about, finds what is set. -/
theorem found_value {re : List Char → Option (List Char × List Char)}
    (about : ∀ line name value, re line = some (name, value) → assigned line = some name)
    (set : (name, value) ∈ productionValues sample svc) (taken : re (entry name value) = some (name, value)) :
    lastValue re name (lines (productionEnv sample svc)) = some value := by
  have there : entry name value ∈ lines (productionEnv sample svc) := by
    rw [lines_productionEnv]
    exact List.mem_append_left _ (mem_packed_of (entry_mem set) (by simp [entry]))
  refine lastValue_of there (by simp [valueFor, taken]) fun line among found isFound => ?_
  obtain read := valueFor_eq_some.1 isFound
  have isName := about line name found read
  rw [lines_productionEnv] at among
  rcases List.mem_append.1 among with inside | blank
  · rw [body_own set (mem_packed inside) isName, taken] at read
    cases read
    rfl
  · rw [List.mem_singleton.1 blank] at isName
    cases isName

theorem values_read (set : (name, value) ∈ productionValues sample svc) :
    EnvFile.get (parseEnv (productionEnv sample svc)) name = some value ∧
      EnvFile.get (Media.parseEnv (productionEnv sample svc)) name = some value := by
  have bare := value_bare set
  obtain ⟨c, rest, isName, spelled⟩ := entry_spelled (own_settable (mem_own set)) value
  have solid : value.dropWhile space = value := List.dropWhile_eq_self_iff.2 fun long => by
    simp [bare.solid _ (List.getElem_mem long)]
  have named : lineRe (entry name value) = some (name, value) := by
    rw [spelled.named, bare.line, isName]
    rfl
  have read : Media.lineRe (entry name value) = some (name, value) := by
    rw [spelled.read, solid, bare.line, isName]
    rfl
  constructor
  · have all := @get_reader _ lineRe (fun _ => true) valueOf (lines (productionEnv sample svc)) name rfl
    rw [found_value (fun _ _ _ => assigned_of_read) set named, Option.map_some, bare.read] at all
    exact all
  · rw [get_media, found_value (fun _ _ _ => assigned_of_media) set read, Option.map_some, bare.read]

/-! ### The lines that stay -/

theorem other_rewrite (sample : List Char) (svc : Service) (line : List Char) :
    other sample svc (rewrite (productionValues sample svc) line) = other sample svc line := by
  have some_text : rewrite (productionValues sample svc) line ≠ [] ↔ line ≠ [] := by
    rcases rewrite_cases sample svc line with same | ⟨name, value, isName, made, -⟩
    · rw [same]
    · rw [made]
      refine ⟨fun _ => ?_, fun _ => by simp [entry]⟩
      rintro rfl
      cases isName
  rw [other, other, rewrite_assigned, decide_eq_decide.2 some_text]

theorem kept_of_missing : (missing (productionValues sample svc) (splitLines sample)).filter (other sample svc) = [] := by
  refine List.filter_eq_nil_iff.2 fun line among => ?_
  obtain ⟨⟨name, value⟩, within, rfl⟩ := List.mem_map.1 among
  have kept := (List.mem_filter.1 within).1
  simp [other, (own_entry kept).1, mem_own kept]

theorem kept_eq (sample : List Char) (svc : Service) :
    (lines (productionEnv sample svc)).filter (other sample svc) =
      ((splitLines sample).filter (other sample svc)).map (rewrite (productionValues sample svc)) := by
  have blanks : (lines (productionEnv sample svc)).filter (other sample svc) =
      (body sample svc).filter (other sample svc) := by
    obtain ⟨k, same⟩ := packed_blanks (body sample svc)
    rw [lines_productionEnv, congrArg (List.filter (other sample svc)) same]
    simp [List.filter_append, other]
  rw [blanks, body, List.filter_append, kept_of_missing, List.append_nil, List.filter_map]
  congr 1
  refine List.filter_congr fun line _ => ?_
  exact other_rewrite sample svc line

/-- The other lines are as they were just when none is about what every object has. -/
theorem kept_iff (sample : List Char) (svc : Service) :
    (lines (productionEnv sample svc)).filter (other sample svc) = (splitLines sample).filter (other sample svc) ↔
      NoInherited sample := by
  rw [kept_eq]
  constructor
  · intro kept line among name text isName isText
    have foreign : name ∉ own sample svc := fun set => by
      have alone := List.all_eq_true.1 settable_alone name (own_settable set)
      simp [isText] at alone
    have some_text : line ≠ [] := by
      rintro rfl
      cases isName
    have staying : other sample svc line = true := by simp [other, some_text, isName, foreign]
    have same := List.map_inj_left.1 (kept.trans (List.map_id _).symm) line (List.mem_filter.2 ⟨among, staying⟩)
    rcases rewrite_cases sample svc line with _ | ⟨key, value, isKey, made, set | ⟨-, isValue⟩⟩
    · simpa [rewrite, isName, property, get_none foreign, isText] using same.symm
    · exact absurd (mem_own set) (Option.some.inj (isName.symm.trans isKey) ▸ foreign)
    · obtain rfl := Option.some.inj (isName.symm.trans isKey)
      obtain rfl := Option.some.inj (isText.symm.trans isValue)
      exact same.symm.trans made
  · intro plain
    refine (List.map_congr_left fun line among => ?_).trans (List.map_id _)
    obtain ⟨within, staying⟩ := List.mem_filter.1 among
    have isOther : (assigned line).any (· ∈ own sample svc) = false := by
      simpa [other] using (Bool.and_eq_true_iff.1 staying).2
    exact rewrite_other isOther fun name text => plain line within name text

/-! ### Where an address is found -/

/-- What an address cannot go on with in the next line. -/
def Stops (text : List Char) : Prop := ∀ c ∈ (text.dropWhile space).head?, c ≠ '=' ∧ c ≠ '"' ∧ c ≠ '\'' ∧ c ≠ 'h'

theorem dropWhile_line (text next : List Char) : (text ++ '\n' :: next).dropWhile space =
    if text.all space then next.dropWhile space else text.dropWhile space ++ '\n' :: next := by
  induction text with
  | nil => rfl
  | cons c rest ih =>
    by_cases white : space c = true
    · simp [white, ih]
    · simp [white]

theorem after_line {word : List Char} (plain : '\n' ∉ word) (text next : List Char) :
    after? word (text ++ '\n' :: next) = (after? word text).map (· ++ '\n' :: next) := by
  induction word generalizing text with
  | nil => simp [after?]
  | cons c word ih =>
    obtain ⟨other, plain⟩ := not_or.1 fun among => plain (List.mem_cons.2 among)
    cases text with
    | nil => simp [after?, Ne.symm other]
    | cons d text =>
      by_cases same : c = d
      · subst same
        simpa [after?] using ih plain text
      · simp [after?, same]

theorem host_line (text next : List Char) : (text ++ '\n' :: next).takeWhile hostChar = text.takeWhile hostChar := by
  induction text with
  | nil => rfl
  | cons c rest ih =>
    by_cases inHost : hostChar c = true
    · simp [inHost, ih]
    · simp [inHost]

theorem unquote_line {text : List Char} (some_text : text ≠ []) (next : List Char) :
    unquote (text ++ '\n' :: next) = unquote text ++ '\n' :: next := by
  cases text with
  | nil => exact absurd rfl some_text
  | cons c rest =>
    rw [List.cons_append, unquote, unquote]
    split <;> rfl

theorem after_other {c d : Char} (other : c ≠ d) (word rest : List Char) : after? (c :: word) (d :: rest) = none := by
  simp [after?, other]

theorem urlAfter_line {next : List Char} (stops : Stops next) (value : List Char) :
    urlAfter (value ++ '\n' :: next) = urlAfter value := by
  unfold urlAfter
  rw [dropWhile_line]
  split
  · rename_i white
    have nothing : value.dropWhile space = [] := List.dropWhile_eq_nil_iff.2 (List.all_eq_true.1 white)
    rw [nothing]
    cases begun : next.dropWhile space with
    | nil => rfl
    | cons c rest =>
      have other := stops c (by rw [begun]; rfl)
      have kept : unquote (c :: rest) = c :: rest := if_neg (by simp [other])
      rw [kept, show "https://".toList = 'h' :: "ttps://".toList from rfl, after_other (Ne.symm other.2.2.2)]
      rfl
  · rename_i black
    have some_text : value.dropWhile space ≠ [] := fun nothing =>
      black (List.all_eq_true.2 (List.dropWhile_eq_nil_iff.1 nothing))
    rw [unquote_line some_text, after_line (by decide)]
    cases after? "https://".toList (unquote (value.dropWhile space)) with
    | none => rfl
    | some rest => simp only [Option.map_some, Option.bind_some, host_line]

theorem urlAt_line {next : List Char} (stops : Stops next) (text : List Char) :
    urlAt (text ++ '\n' :: next) = if text.all space then urlAt next else urlAt text := by
  unfold urlAt
  rw [dropWhile_line]
  split
  · rfl
  · rw [after_line (by decide)]
    cases after? "BASE_URL".toList (text.dropWhile space) with
    | none => rfl
    | some rest =>
      rw [Option.map_some, Option.bind_some, Option.bind_some, dropWhile_line]
      by_cases white : rest.all space = true
      · rw [if_pos white, List.dropWhile_eq_nil_iff.2 (List.all_eq_true.1 white)]
        split
        · rename_i value sign
          exact absurd rfl (stops '=' (by rw [sign]; rfl)).1
        · rfl
      · rw [if_neg white]
        cases begun : rest.dropWhile space with
        | nil => exact absurd (List.all_eq_true.2 (List.dropWhile_eq_nil_iff.1 begun)) white
        | cons c value =>
          rw [List.cons_append]
          by_cases sign : c = '='
          · subst sign
            exact urlAfter_line stops value
          · split
            · rename_i same
              exact absurd (List.cons.inj same).1 sign
            · split
              · rename_i same
                exact absurd (List.cons.inj same).1 sign
              · rfl

theorem urlAt_white {text : List Char} (white : text.all space = true) : urlAt text = none := by
  rw [urlAt, List.dropWhile_eq_nil_iff.2 (List.all_eq_true.1 white)]
  rfl

theorem urlFrom_white {text : List Char} (white : text.all space = true) (begins : Bool) : urlFrom begins text = none := by
  induction text generalizing begins with
  | nil => rfl
  | cons c rest ih =>
    rw [urlFrom, urlAt_white white, ih (Bool.and_eq_true_iff.1 white).2]
    simp

theorem urlFrom_head (text : List Char) : (urlAt text).or (urlFrom true text) = urlFrom true text := by
  cases text with
  | nil => rfl
  | cons c rest =>
    rw [urlFrom, if_pos rfl]
    cases urlAt (c :: rest) <;> rfl

/-- No address goes on from one line into the next when the next line does not begin as one goes on. -/
theorem urlFrom_line {next : List Char} (stops : Stops next) (text : List Char) (begins : Bool) :
    urlFrom begins (text ++ '\n' :: next) = (urlFrom begins text).or (urlFrom true next) := by
  induction text generalizing begins with
  | nil =>
    cases begins with
    | false => rfl
    | true => exact urlFrom_head next
  | cons c rest ih =>
    rw [List.cons_append, urlFrom, urlFrom, ih, ← List.cons_append, urlAt_line stops]
    split
    · split
      · rename_i white
        rw [urlAt_white white, urlFrom_white (Bool.and_eq_true_iff.1 white).2]
        exact urlFrom_head next
      · exact (Option.or_assoc ..).symm
    · rfl

theorem urlIn_append {before later : List (List Char)} (stops : Stops (ended later)) :
    urlIn (ended (before ++ later)) = (urlIn (ended before)).or (urlIn (ended later)) := by
  rcases List.eq_nil_or_concat before with rfl | ⟨before, line, rfl⟩
  · rfl
  · have whole (next : List Char) : ended (before.concat line) ++ next = (ended before ++ line) ++ '\n' :: next := by
      simp [ended]
    have closed := @urlFrom_line [] (fun c first => by cases first) (ended before ++ line) true
    rw [ended_append, urlIn, whole, urlFrom_line stops, urlIn, ← List.append_nil (ended (before.concat line)), whole,
      closed]
    simp [urlFrom, urlIn]

/-- A line that no address stands on, begins on or goes on in. -/
structure Dead (line : List Char) : Prop where
  opens : ∃ c rest, line = c :: rest ∧ space c = false ∧ c ≠ 'B' ∧ c ≠ '=' ∧ c ≠ '"' ∧ c ≠ '\'' ∧ c ≠ 'h'
  single : line.any terminator = false

theorem Dead.stops {line : List Char} (dead : Dead line) (next : List Char) : Stops (line ++ next) := by
  obtain ⟨c, rest, rfl, black, -, opens⟩ := dead.opens
  intro d first
  obtain rfl : c = d := by simpa [black] using first
  exact opens

theorem urlFrom_single {line : List Char} (single : line.any terminator = false) (next : List Char) :
    urlFrom false (line ++ '\n' :: next) = urlFrom true next := by
  induction line with
  | nil => rfl
  | cons c rest ih =>
    obtain ⟨inLine, single⟩ := Bool.or_eq_false_iff.1 single
    rw [List.cons_append, urlFrom, if_neg Bool.false_ne_true, inLine, ih single]

theorem Dead.skip {line : List Char} (dead : Dead line) (next : List Char) :
    urlFrom true (line ++ '\n' :: next) = urlFrom true next := by
  have single := dead.single
  obtain ⟨c, rest, rfl, black, other, -⟩ := dead.opens
  obtain ⟨inLine, single⟩ := Bool.or_eq_false_iff.1 single
  have nothing : urlAt (c :: (rest ++ '\n' :: next)) = none := by
    rw [urlAt, List.dropWhile_cons_of_neg (by simp [black]), show "BASE_URL".toList = 'B' :: "ASE_URL".toList from rfl,
      after_other (Ne.symm other)]
    rfl
  rw [List.cons_append, urlFrom, if_pos rfl, nothing, Option.none_or, inLine, urlFrom_single single]

theorem dead_lines {ls : List (List Char)} (dead : ∀ line ∈ ls, Dead line) :
    Stops (ended ls) ∧ urlIn (ended ls) = none := by
  induction ls with
  | nil => exact ⟨fun c first => absurd first (by simp [ended]), rfl⟩
  | cons line rest ih =>
    have first := dead line (List.mem_cons_self ..)
    rw [ended_cons, urlIn, first.skip]
    exact ⟨first.stops _, (ih fun line among => dead line (List.mem_cons_of_mem _ among)).2⟩

/-- Lines that are replaced by dead ones where they are dead make no difference. -/
theorem urlIn_map {made other : List Char → List Char} {ls : List (List Char)}
    (alike : ∀ line ∈ ls, made line = other line ∨ (Dead (made line) ∧ Dead (other line))) (before : List (List Char)) :
    urlIn (ended (before ++ ls.map made)) = urlIn (ended (before ++ ls.map other)) := by
  induction ls generalizing before with
  | nil => rfl
  | cons line rest ih =>
    have later := ih fun line among => alike line (List.mem_cons_of_mem _ among)
    rw [List.map_cons, List.map_cons]
    rcases alike line (List.mem_cons_self ..) with same | ⟨one, two⟩
    · rw [same, List.append_cons before _ (rest.map made), List.append_cons before _ (rest.map other)]
      exact later _
    · have skip {dead : List Char} (isDead : Dead dead) (ls : List (List Char)) :
          urlIn (ended (before ++ dead :: ls)) = (urlIn (ended before)).or (urlIn (ended ls)) := by
        rw [urlIn_append (by rw [ended_cons]; exact isDead.stops _), ended_cons, urlIn, urlIn, isDead.skip]
        rfl
      rw [skip one, skip two]
      exact congrArg _ (later [])

theorem dead_comment : Dead ['#'] where
  opens := ⟨'#', [], rfl, by decide⟩
  single := by decide

/-- An entry for another name than the address is dead. -/
theorem dead_entry (set : (name, value) ∈ productionValues sample svc) (other : name ≠ "BASE_URL".toList) :
    Dead (entry name value) where
  opens := by
    rcases mem_values.1 set with ⟨rfl, -⟩ | ⟨rfl, -⟩ | ⟨rfl, -⟩ | ⟨isName, -⟩
    · exact ⟨'N', _, rfl, by decide⟩
    · exact ⟨'H', _, rfl, by decide⟩
    · exact ⟨'P', _, rfl, by decide⟩
    · exact absurd isName other
  single := by
    have single : name.any terminator = false := by
      have each : settable.all (fun name => !name.any terminator) = true := by decide
      simpa using List.all_eq_true.1 each name (own_settable (mem_own set))
    rw [entry, List.any_append, single, List.any_cons, (value_bare set).line]
    rfl

theorem after_self (word rest : List Char) : after? word (word ++ rest) = some rest := by
  rw [after?, if_pos (by simp), List.drop_left]

theorem address_begun (more : List Char) : ("BASE_URL".toList ++ more).dropWhile space = "BASE_URL".toList ++ more :=
  List.dropWhile_cons_of_neg (by decide)

theorem value_opens (more : List Char) :
    unquote (("https://".toList ++ more).dropWhile space) = "https://".toList ++ more := rfl

theorem address_line {url : List Char} (found : urlIn sample = some url) (rest : List (List Char)) :
    Stops (ended (entry "BASE_URL".toList url :: rest)) ∧
      urlIn (ended (entry "BASE_URL".toList url :: rest)) = some url := by
  obtain ⟨host, rfl, some_host, inHost⟩ := urlFrom_shape found
  rw [ended_cons]
  have value : urlAfter ("https://".toList ++ host ++ '\n' :: ended rest) = some ("https://".toList ++ host) := by
    have cut := (@taken_until hostChar host ('\n' :: ended rest) inHost (by simp [show hostChar '\n' = false by decide])).1
    rw [urlAfter, List.append_assoc, value_opens, after_self, Option.bind_some, cut, if_neg some_host]
  have here : urlAt (entry "BASE_URL".toList ("https://".toList ++ host) ++ '\n' :: ended rest) =
      some ("https://".toList ++ host) := by
    rw [urlAt, entry, List.append_assoc, address_begun, after_self, Option.bind_some, List.cons_append,
      List.dropWhile_cons_of_neg (by decide)]
    exact value
  constructor
  · intro c first
    rw [entry, List.append_assoc, address_begun] at first
    obtain rfl : 'B' = c := Option.some.inj first
    decide
  · rw [urlIn, ← urlFrom_head, here, Option.some_or]

theorem address_iff {line : List Char} : address sample svc line = true ↔
    assigned line = some "BASE_URL".toList ∧ "BASE_URL".toList ∈ own sample svc := by
  rw [address, Bool.and_eq_true, decide_eq_true_eq, decide_eq_true_eq]

theorem rewrite_comment (plain : NoInherited sample) {line : List Char} (among : line ∈ splitLines sample)
    (other : address sample svc line = false) :
    rewrite (productionValues sample svc) line = comment sample svc line ∨
      (Dead (rewrite (productionValues sample svc) line) ∧ Dead (comment sample svc line)) := by
  by_cases isOwn : (assigned line).any (· ∈ own sample svc) = true
  · obtain ⟨name, value, isName, set⟩ := exists_own isOwn
    have notUrl : name ≠ "BASE_URL".toList := by
      rintro rfl
      exact Bool.false_ne_true (other.symm.trans (address_iff.2 ⟨isName, mem_own set⟩))
    rw [comment, if_pos isOwn, rewrite_own set isName]
    exact .inr ⟨dead_entry set notUrl, dead_comment⟩
  · rw [comment, if_neg isOwn]
    exact .inl (rewrite_other (by simpa using isOwn) fun name text => plain line among name text)

theorem missing_dead {values : List (List Char × List Char)}
    (dead : ∀ name value, (name, value) ∈ values → Dead (entry name value)) (ls : List (List Char)) :
    ∀ line ∈ missing values ls, Dead line := by
  intro line among
  obtain ⟨⟨name, value⟩, within, rfl⟩ := List.mem_map.1 among
  exact dead name value (List.mem_filter.1 within).1

/-- The lines that are set up to the first for the address, or all of them, are as good as comments. -/
theorem urlIn_front (plain : NoInherited sample) {front back : List (List Char)} (split : splitLines sample = front ++ back)
    (isFront : front = (splitLines sample).takeWhile fun line => !address sample svc line) :
    urlIn (ended (front.map (rewrite (productionValues sample svc)))) = urlIn (commented sample svc) := by
  rw [commented, ← isFront]
  refine @urlIn_map _ _ front (fun line among => rewrite_comment plain (split ▸ List.mem_append_left _ among) ?_) []
  rw [isFront] at among
  simpa using List.mem_takeWhile_imp among

theorem exists_url (set : "BASE_URL".toList ∈ own sample svc) : ∃ url, baseUrl svc sample = some url := by
  obtain ⟨⟨name, value⟩, among, isName⟩ := List.mem_map.1 set
  have isName : name = "BASE_URL".toList := isName
  rcases mem_values.1 among with ⟨other, -⟩ | ⟨other, -⟩ | ⟨other, -⟩ | ⟨-, found⟩
  · exact absurd (isName.symm.trans other) (by decide)
  · exact absurd (isName.symm.trans other) (by decide)
  · exact absurd (isName.symm.trans other) (by decide)
  · exact ⟨value, found⟩

/-- The lines that are added when none is about the address end in one that sets it. -/
theorem missing_url {url : List Char} (isUrl : baseUrl svc sample = some url) {ls : List (List Char)}
    (none : ∀ line ∈ ls, assigned line ≠ some "BASE_URL".toList) : ∃ dead : List (List Char), (∀ line ∈ dead, Dead line) ∧
      missing (productionValues sample svc) ls = dead ++ [entry "BASE_URL".toList url] := by
  have whole : productionValues sample svc = (productionValues sample svc).take 3 ++ [("BASE_URL".toList, url)] := by
    rw [productionValues, isUrl]
    rfl
  refine ⟨missing ((productionValues sample svc).take 3) ls, missing_dead (fun name value among => ?_) ls, ?_⟩
  · refine dead_entry (List.mem_of_mem_take among) ?_
    rintro rfl
    have names : "BASE_URL".toList ∈ ["NODE_ENV".toList, "HOST".toList, "PORT".toList] :=
      (List.mem_map.2 ⟨_, among, rfl⟩ : "BASE_URL".toList ∈ ((productionValues sample svc).take 3).map (·.1))
    exact absurd names (by decide)
  · rw [congrArg (missing · ls) whole, missing, missing, List.filter_append, List.map_append]
    congr 1
    have kept : some "BASE_URL".toList ∉ ls.map assigned := fun among => by
      obtain ⟨line, within, isName⟩ := List.mem_map.1 among
      exact none line within isName
    rw [List.filter_cons_of_pos (by exact decide_eq_true kept)]
    rfl

theorem urlIn_again (unstated : stated svc = none) (plain : NoInherited sample) :
    urlIn (productionEnv sample svc) = (urlIn (commented sample svc)).or (urlIn sample) := by
  have packedSame : urlIn (ended (body sample svc)) = urlIn (productionEnv sample svc) := by
    obtain ⟨k, same⟩ := packed_blanks (body sample svc)
    have white : (ended (List.replicate k [])).all space = true := by
      refine List.all_eq_true.2 fun c among => ?_
      obtain ⟨line, isBlank, isBreak⟩ := List.mem_flatMap.1 among
      rw [List.eq_of_mem_replicate isBlank] at isBreak
      rw [List.mem_singleton.1 isBreak]
      decide
    have stops : Stops (ended (List.replicate k [])) := by
      intro c first
      rw [List.dropWhile_eq_nil_iff.2 (List.all_eq_true.1 white)] at first
      cases first
    rw [productionEnv_eq, congrArg (fun ls => urlIn (ended ls)) same, urlIn_append stops, urlIn, urlIn,
      urlFrom_white white, Option.or_none]
  rw [← packedSame]
  have url : baseUrl svc sample = urlIn sample := by rw [baseUrl, unstated, Option.none_or]
  cases found : urlIn sample with
  | none =>
    have noUrl : "BASE_URL".toList ∉ own sample svc := by
      intro set
      obtain ⟨u, isUrl⟩ := exists_url set
      rw [url, found] at isUrl
      cases isUrl
    have notUrl (name value : List Char) (set : (name, value) ∈ productionValues sample svc) :
        name ≠ "BASE_URL".toList := by
      rintro rfl
      exact noUrl (mem_own set)
    have whole : splitLines sample = (splitLines sample).takeWhile fun line => !address sample svc line := by
      refine (List.takeWhile_eq_self_iff.2 fun line _ => ?_).symm
      rw [Bool.not_eq_true', Bool.eq_false_iff]
      exact fun is => noUrl (address_iff.1 is).2
    have dead := dead_lines (missing_dead (fun name value set => dead_entry set (notUrl name value set))
      (splitLines sample))
    rw [body, urlIn_append dead.1, dead.2, urlIn_front plain (List.append_nil _).symm whole]
  | some u =>
    rw [found] at url
    have set : ("BASE_URL".toList, u) ∈ productionValues sample svc := mem_values.2 (.inr (.inr (.inr ⟨rfl, url⟩)))
    have split := (List.takeWhile_append_dropWhile (p := fun line => !address sample svc line) (l := splitLines sample)).symm
    have front := urlIn_front plain split rfl
    cases back : (splitLines sample).dropWhile fun line => !address sample svc line with
    | nil =>
      rw [back, List.append_nil] at split
      have none : ∀ line ∈ splitLines sample, assigned line ≠ some "BASE_URL".toList := by
        intro line among isName
        rw [split] at among
        have other := List.mem_takeWhile_imp among
        rw [address_iff.2 ⟨isName, mem_own set⟩] at other
        cases other
      obtain ⟨dead, isDead, added⟩ := missing_url url none
      rw [← split] at front
      rw [body, added, ← List.append_assoc, urlIn_append (address_line found []).1, (address_line found []).2,
        urlIn_append (dead_lines isDead).1, (dead_lines isDead).2, front, Option.or_none]
    | cons line later =>
      have isUrl : address sample svc line = true := by
        have first := List.head?_dropWhile_not (fun line => !address sample svc line) (splitLines sample)
        rw [back] at first
        simpa using first
      have whole : body sample svc = ((splitLines sample).takeWhile fun line => !address sample svc line).map
          (rewrite (productionValues sample svc)) ++ entry "BASE_URL".toList u ::
            (later.map (rewrite (productionValues sample svc)) ++
              missing (productionValues sample svc) (splitLines sample)) := by
        rw [body, congrArg (List.map (rewrite (productionValues sample svc))) split, back, List.map_append, List.map_cons,
          rewrite_own set (address_iff.1 isUrl).1, List.append_assoc, List.cons_append]
      rw [whole, urlIn_append (address_line found _).1, (address_line found _).2, front]

/-! ### A second time -/

theorem splitLines_ended {ls : List (List Char)} (plain : ∀ line ∈ ls, '\n' ∉ line) :
    splitLines (ended ls) = ls.map stripCr ++ [[]] := by
  rw [splitLines, lines_ended plain]
  simp

theorem splitLines_again (sample : List Char) (svc : Service) :
    splitLines (productionEnv sample svc) = (packed (body sample svc)).map stripCr ++ [[]] := by
  rw [productionEnv_eq, splitLines_ended fun line among => body_plain (mem_packed among)]

/-- The text is its lines. -/
theorem ended_inj {a b : List (List Char)} (plainA : ∀ line ∈ a, '\n' ∉ line) (plainB : ∀ line ∈ b, '\n' ∉ line)
    (same : ended a = ended b) : a = b := by
  have whole := congrArg lines same
  rw [lines_ended plainA, lines_ended plainB] at whole
  exact List.append_cancel_right whole

/-- Without carriage returns at the ends of lines and with the same address, the second time finds what it would write. -/
theorem fixed_of (plain : NoInherited sample) (noCr : NoCr sample svc)
    (same : baseUrl svc (productionEnv sample svc) = baseUrl svc sample) :
    productionEnv (productionEnv sample svc) svc = productionEnv sample svc := by
  have values : productionValues (productionEnv sample svc) svc = productionValues sample svc := by
    rw [productionValues, same]
    rfl
  have entry_kept (name value : List Char) (set : (name, value) ∈ productionValues sample svc) :
      stripCr (entry name value) = entry name value ∧
        rewrite (productionValues sample svc) (entry name value) = entry name value :=
    ⟨if_neg (own_entry set).2.2, rewrite_own set (own_entry set).1⟩
  have line_kept : ∀ line ∈ body sample svc, stripCr line = line ∧ rewrite (productionValues sample svc) line = line := by
    intro line among
    rcases List.mem_append.1 among with inside | added
    · obtain ⟨old, within, rfl⟩ := List.mem_map.1 inside
      by_cases isOwn : (assigned old).any (· ∈ own sample svc) = true
      · obtain ⟨name, value, isName, set⟩ := exists_own isOwn
        rw [rewrite_own set isName]
        exact entry_kept name value set
      · have foreign : (assigned old).any (· ∈ own sample svc) = false := by simpa using isOwn
        have stays := rewrite_other foreign fun name text => plain old within name text
        rw [stays]
        exact ⟨if_neg (noCr old within foreign), stays⟩
    · obtain ⟨⟨name, value⟩, within, rfl⟩ := List.mem_map.1 added
      exact entry_kept name value (List.mem_filter.1 within).1
  have found : splitLines (productionEnv sample svc) = packed (body sample svc) ++ [[]] := by
    rw [splitLines_again]
    congr 1
    exact (List.map_congr_left fun line among => (line_kept line (mem_packed among)).1).trans (List.map_id _)
  have nothing : missing (productionValues sample svc) (packed (body sample svc) ++ [[]]) = [] := by
    refine List.map_eq_nil_iff.2 (List.filter_eq_nil_iff.2 fun ⟨name, value⟩ set => ?_)
    have there := mem_packed_of (entry_mem set) (show entry name value ≠ [] by simp [entry])
    have named : some name ∈ (packed (body sample svc) ++ [[]]).map assigned :=
      List.mem_map.2 ⟨_, List.mem_append_left _ there, (own_entry set).1⟩
    exact fun missed => of_decide_eq_true missed named
  have again : body (productionEnv sample svc) svc = packed (body sample svc) ++ [[]] := by
    rw [body, values, found, nothing, List.append_nil, List.map_append]
    congr 1
    exact (List.map_congr_left fun line among => (line_kept line (mem_packed among)).2).trans (List.map_id _)
  rw [productionEnv_eq (productionEnv sample svc), again, productionEnv_eq sample]
  simp [packed, List.rdropWhile_idempotent]

theorem packed_of_fixed (fixed : productionEnv (productionEnv sample svc) svc = productionEnv sample svc) :
    packed (body (productionEnv sample svc) svc) = packed (body sample svc) := by
  refine ended_inj (fun line among => body_plain (mem_packed among)) (fun line among => body_plain (mem_packed among)) ?_
  rw [← productionEnv_eq, ← productionEnv_eq, fixed]

/-- A carriage return at the end of a line that stays is lost the second time. -/
theorem noCr_of_fixed (plain : NoInherited sample)
    (fixed : productionEnv (productionEnv sample svc) svc = productionEnv sample svc) : NoCr sample svc := by
  intro line among foreign ends
  have stays := rewrite_other foreign fun name text => plain line among name text
  have some_text : line ≠ [] := by
    rintro rfl
    cases ends
  have there : line ∈ packed (body sample svc) :=
    mem_packed_of (List.mem_append_left _ (List.mem_map.2 ⟨line, among, stays⟩)) some_text
  obtain ⟨i, inside, isLine⟩ := List.getElem_of_mem there
  have same := packed_of_fixed fixed
  have here : (body (productionEnv sample svc) svc)[i]? = some line := by
    have within : packed (body (productionEnv sample svc) svc) <+: body (productionEnv sample svc) svc :=
      List.rdropWhile_prefix ..
    rw [same] at within
    rw [List.prefix_iff_getElem?.1 within i inside, isLine]
  have made : (body (productionEnv sample svc) svc)[i]? =
      some (rewrite (productionValues (productionEnv sample svc) svc) (stripCr line)) := by
    rw [body, splitLines_again, List.getElem?_append_left (by simp; omega), List.getElem?_map,
      List.getElem?_append_left (by simpa using inside), List.getElem?_map, List.getElem?_eq_getElem inside, isLine]
    rfl
  have back := Option.some.inj (here.symm.trans made)
  have cut : stripCr line ≠ line := by
    rw [stripCr, if_pos ends]
    intro same
    have shorter := congrArg List.length same
    rw [List.length_dropLast] at shorter
    exact some_text (List.length_eq_zero_iff.1 (by omega))
  rcases rewrite_cases (productionEnv sample svc) svc (stripCr line) with kept | ⟨name, value, -, isEntry, set | ⟨-, isText⟩⟩
  · exact cut (kept.symm.trans back.symm)
  · exact (own_entry set).2.2 (isEntry ▸ back ▸ ends)
  · exact (inherited_entry isText).2.2 (isEntry ▸ back ▸ ends)

theorem urlFrom_later {text next : List Char} {begins : Bool}
    (nothing : urlFrom begins (text ++ '\n' :: next) = none) : urlFrom true next = none := by
  induction text generalizing begins with
  | nil =>
    rw [List.nil_append, urlFrom] at nothing
    split at nothing
    · exact (Option.or_eq_none_iff.1 nothing).2
    · exact nothing
  | cons c rest ih =>
    rw [List.cons_append, urlFrom] at nothing
    split at nothing
    · exact ih (Option.or_eq_none_iff.1 nothing).2
    · exact ih nothing

theorem mem_splitLines {text line : List Char} (among : line ∈ splitLines text) :
    ∃ before more, text = before ++ (line ++ more) ∧ Pieces.Begins '\n' before := by
  have ofPiece {piece : List Char} (within : piece ∈ lines text) (front : line <+: piece) :
      ∃ before more, text = before ++ (line ++ more) ∧ Pieces.Begins '\n' before := by
    obtain ⟨before, after, whole, begins, -⟩ := Pieces.of_mem_splitOn within
    obtain ⟨rest, rfl⟩ := front
    exact ⟨before, rest ++ after, by rw [whole]; simp, begins⟩
  rcases List.mem_append.1 among with inside | last
  · obtain ⟨piece, within, rfl⟩ := List.mem_map.1 inside
    exact ofPiece (List.mem_of_mem_dropLast within) (stripCr_begins piece)
  · exact ofPiece (List.mem_of_getLast? (Option.mem_toList.1 last)) List.prefix_rfl

/-- An example with a line that sets an address states one. -/
theorem url_of_line {host : List Char} (some_host : host ≠ []) (inHost : host.all hostChar = true)
    (among : entry "BASE_URL".toList ("https://".toList ++ host) ∈ splitLines sample) : urlIn sample ≠ none := by
  have here (more : List Char) :
      urlFrom true (entry "BASE_URL".toList ("https://".toList ++ host) ++ more) ≠ none := by
    intro nothing
    rw [← urlFrom_head, Option.or_eq_none_iff, urlAt, entry, List.append_assoc, address_begun, after_self,
      Option.bind_some, List.cons_append, List.dropWhile_cons_of_neg (by decide)] at nothing
    have value : urlAfter ("https://".toList ++ host ++ more) = none := nothing.1
    rw [urlAfter, List.append_assoc, value_opens, after_self, Option.bind_some] at value
    obtain ⟨c, rest, rfl⟩ := List.exists_cons_of_ne_nil some_host
    rw [List.cons_append, List.takeWhile_cons_of_pos (Bool.and_eq_true_iff.1 inHost).1] at value
    cases value
  obtain ⟨before, more, rfl, rfl | ⟨front, rfl⟩⟩ := mem_splitLines among
  · exact here more
  · intro nothing
    rw [List.append_assoc] at nothing
    exact here more (urlFrom_later nothing)

/-- The second time sets the address that the readers find after the first. -/
theorem sameUrl_of_fixed (unstated : stated svc = none) (plain : NoInherited sample)
    (fixed : productionEnv (productionEnv sample svc) svc = productionEnv sample svc) :
    urlIn (productionEnv sample svc) = urlIn sample := by
  have url (text : List Char) : baseUrl svc text = urlIn text := by rw [baseUrl, unstated, Option.none_or]
  have again := urlIn_again unstated plain
  have read {text found : List Char} (isFound : urlIn text = some found) :=
    (values_read (mem_values.2 (.inr (.inr (.inr ⟨rfl, (url text).trans isFound⟩))))).1
  cases first : urlIn sample with
  | some u =>
    cases second : urlIn (productionEnv sample svc) with
    | none =>
      rw [again, first] at second
      simp at second
    | some v =>
      have there := read second
      rw [fixed, read first] at there
      exact there.symm
  | none =>
    by_contra found
    obtain ⟨v, second⟩ := Option.ne_none_iff_exists'.1 found
    have set := mem_values.2 (.inr (.inr (.inr ⟨rfl, (url (productionEnv sample svc)).trans second⟩)))
    have unset : "BASE_URL".toList ∉ own sample svc := fun set => by
      obtain ⟨u, isUrl⟩ := exists_url set
      rw [url, first] at isUrl
      cases isUrl
    -- the file would have the line, and so would the example
    have there := mem_packed_of (entry_mem set) (show entry "BASE_URL".toList v ≠ [] by simp [entry])
    rw [packed_of_fixed fixed] at there
    obtain ⟨host, rfl, some_host, inHost⟩ := urlFrom_shape second
    refine url_of_line some_host inHost ?_ first
    rcases List.mem_append.1 (mem_packed there) with inside | added
    · obtain ⟨old, among, made⟩ := List.mem_map.1 inside
      have isName : assigned old = some "BASE_URL".toList := by
        rw [← rewrite_assigned sample svc old, made, (own_entry set).1]
      rcases rewrite_cases sample svc old with kept | ⟨name, value, isKey, -, isOwn | ⟨-, isText⟩⟩
      · rwa [← made, kept]
      · exact absurd (mem_own isOwn) (Option.some.inj (isName.symm.trans isKey) ▸ unset)
      · have alone := List.all_eq_true.1 settable_alone _ (own_settable (mem_own set))
        rw [Option.some.inj (isName.symm.trans isKey), isText] at alone
        cases alone
    · obtain ⟨⟨name, value⟩, within, isEntry⟩ := List.mem_map.1 added
      have isEntry : entry name value = _ := isEntry
      have kept := (List.mem_filter.1 within).1
      have isName := (own_entry kept).1
      rw [isEntry, (own_entry set).1] at isName
      exact absurd (mem_own kept) (Option.some.inj isName ▸ unset)

theorem sameAddress_iff (unstated : stated svc = none) (plain : NoInherited sample) :
    urlIn (productionEnv sample svc) = urlIn sample ↔ SameAddress sample svc := by
  rw [urlIn_again unstated plain, SameAddress]
  cases urlIn (commented sample svc) with
  | none => simp
  | some u => simp [unstated, eq_comm]

/-- The file is as it should be just when no line assigns a name that every object has, no line that stays ends in a
carriage return, and an address that is read from the example does not depend on the lines that are rewritten. -/
theorem productionEnv_meets_iff (sample : List Char) (svc : Service) :
    Meets sample svc ↔ NoInherited sample ∧ NoCr sample svc ∧ SameAddress sample svc := by
  constructor
  · intro meets
    have plain := (kept_iff sample svc).1 meets.kept
    refine ⟨plain, noCr_of_fixed plain meets.fixed, fun unstated => ?_⟩
    exact (sameAddress_iff unstated plain).1 (sameUrl_of_fixed unstated plain meets.fixed) unstated
  · rintro ⟨plain, noCr, same⟩
    refine ⟨fun name value => values_read, (kept_iff sample svc).2 plain, fixed_of plain noCr ?_⟩
    cases isStated : stated svc with
    | some url => rw [baseUrl, baseUrl, isStated, Option.some_or, Option.some_or]
    | none =>
      rw [baseUrl, baseUrl, isStated, Option.none_or, Option.none_or]
      exact (sameAddress_iff isStated plain).2 same

/-- A line `constructor=x` of the example is rewritten. -/
theorem inherited_rewritten : ¬ ∀ sample svc, Meets sample svc := by
  intro always
  have plain := (kept_iff _ _).1 (always "constructor=x".toList ⟨3000, none, none⟩).kept
  exact absurd (plain "constructor=x".toList (by decide) "constructor".toList _ (by decide) rfl) (by decide)

end OpenVibeHost.ServiceAdd
