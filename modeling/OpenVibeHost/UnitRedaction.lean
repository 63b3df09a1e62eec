import OpenVibeHost.EnvFile
import OpenVibeHost.Paths

/-! What a restore drill reads of a redacted unit file: the environment, with the secrets masked. -/
namespace OpenVibeHost.EnvFile

/-- The environment with the values of secret names masked. -/
def masked (environment : List (List Char × List Char)) : List (List Char × List Char) :=
  environment.map fun entry => (entry.1, if secretName entry.1 then mask else entry.2)

/-- A part that is read back as it is: without a double quote, and without a single one unless it is quoted. -/
def Safe (p : List Char) : Prop := '"' ∉ p ∧ ('\'' ∈ p → p.any space = true)

instance : DecidablePred Safe := fun p => inferInstanceAs (Decidable ('"' ∉ p ∧ ('\'' ∈ p → p.any space = true)))

/-! ### The parts of a line -/

theorem splitFrom_plain {cur p rest : List Char} (plain : ∀ c ∈ p, c ≠ '"' ∧ c ≠ '\'' ∧ space c = false) :
    splitFrom cur none (p ++ rest) = splitFrom (cur ++ p) none rest := by
  induction p generalizing cur with
  | nil => simp
  | cons c p ih =>
    obtain ⟨double, single, black⟩ := plain c (List.mem_cons_self ..)
    rw [List.cons_append, splitFrom, if_neg (by simp [double, single]), if_neg (by simp [black]),
      ih fun d among => plain d (List.mem_cons_of_mem _ among), List.append_assoc, List.singleton_append]

theorem splitFrom_quote {cur p rest : List Char} {quote : Char} (none : quote ∉ p) :
    splitFrom cur (some quote) (p ++ quote :: rest) = splitFrom (cur ++ p) .none rest := by
  induction p generalizing cur with
  | nil => simp [splitFrom]
  | cons c p ih =>
    obtain ⟨ne, later⟩ := not_or.1 (fun h => none (List.mem_cons.2 h))
    rw [List.cons_append, splitFrom, if_neg (Ne.symm ne), ih later, List.append_assoc, List.singleton_append]

/-- A part that is written as the redacted line has it is read whole. -/
theorem splitFrom_requote {p rest : List Char} (safe : Safe p) :
    splitFrom [] none (requote p ++ rest) = splitFrom p none rest := by
  obtain ⟨double, single⟩ := safe
  unfold requote
  split
  · rw [List.cons_append, splitFrom, if_pos (.inl rfl), List.append_assoc, List.singleton_append,
      splitFrom_quote double, List.nil_append]
  · rename_i white
    rw [splitFrom_plain, List.nil_append]
    intro c among
    refine ⟨ne_of_mem_of_not_mem among double, ne_of_mem_of_not_mem among fun quote => white (single quote), ?_⟩
    by_contra isSpace
    exact white (List.any_eq_true.2 ⟨c, among, by simpa using isSpace⟩)

theorem joinParts_cons (p q : List Char) (ps : List (List Char)) :
    joinParts (p :: q :: ps) = requote p ++ ' ' :: joinParts (q :: ps) := by
  simp [joinParts, List.intercalate]

/-- Safe parts are read back from their line. -/
theorem split_joinParts {ps : List (List Char)} (safe : ∀ p ∈ ps, Safe p ∧ p ≠ []) :
    splitAssignments (joinParts ps) = ps := by
  induction ps with
  | nil => rfl
  | cons p ps ih =>
    obtain ⟨first, some_text⟩ := safe p (List.mem_cons_self ..)
    cases ps with
    | nil =>
      have whole := @splitFrom_requote p [] first
      rw [List.append_nil] at whole
      simpa [splitAssignments, joinParts, splitFrom, some_text] using whole
    | cons q ps =>
      have later := ih fun r among => safe r (List.mem_cons_of_mem _ among)
      rw [splitAssignments, joinParts_cons, splitFrom_requote first, splitFrom, if_neg (by decide), if_pos (by decide),
        if_neg some_text]
      exact congrArg (p :: ·) later

/-! ### The redacted line -/

theorem trim_eq_self {text : List Char} (begins : ∀ c ∈ text.head?, space c = false)
    (ends : ∀ c ∈ text.getLast?, space c = false) : trim text = text := by
  cases text with
  | nil => rfl
  | cons c rest =>
    have black : space c = false := begins c rfl
    have kept : (c :: rest).rdropWhile space = c :: rest :=
      List.rdropWhile_eq_self_iff.2 fun some_text => by
        simpa using ends _ (List.getLast?_eq_some_getLast some_text)
    rw [trim, List.dropWhile_cons_of_neg (by simp [black])]
    exact kept

theorem ends_requote {p : List Char} (some_text : p ≠ []) :
    (∀ c ∈ (requote p).head?, space c = false) ∧ ∃ begun c, requote p = begun ++ [c] ∧ space c = false := by
  unfold requote
  split
  · exact ⟨by simp [show space '"' = false by decide], '"' :: p, '"', rfl, by decide⟩
  · rename_i white
    have black (c : Char) (among : c ∈ p) : space c = false := by
      by_contra isSpace
      exact white (List.any_eq_true.2 ⟨c, among, by simpa using isSpace⟩)
    refine ⟨fun c first => black c (List.mem_of_head? first), p.dropLast, p.getLast some_text, ?_, ?_⟩
    · exact (List.dropLast_append_getLast some_text).symm
    · exact black _ (List.getLast_mem some_text)

theorem requote_ne_nil {p : List Char} (some_text : p ≠ []) : requote p ≠ [] := by
  obtain ⟨-, begun, c, same, -⟩ := ends_requote some_text
  simp [same]

theorem ends_joinParts {ps : List (List Char)} (some_parts : ps ≠ []) (each : ∀ p ∈ ps, p ≠ []) :
    ∃ begun c, joinParts ps = begun ++ [c] ∧ space c = false := by
  induction ps with
  | nil => exact absurd rfl some_parts
  | cons p ps ih =>
    cases ps with
    | nil =>
      obtain ⟨-, begun, c, same, black⟩ := ends_requote (each p (List.mem_cons_self ..))
      exact ⟨begun, c, by simpa [joinParts] using same, black⟩
    | cons q ps =>
      obtain ⟨begun, c, same, black⟩ := ih (by simp) fun r among => each r (List.mem_cons_of_mem _ among)
      exact ⟨requote p ++ ' ' :: begun, c, by rw [joinParts_cons, same]; simp, black⟩

theorem trim_joinParts {ps : List (List Char)} (each : ∀ p ∈ ps, p ≠ []) : trim (joinParts ps) = joinParts ps := by
  by_cases some_parts : ps = []
  · subst some_parts
    rfl
  · obtain ⟨begun, c, same, black⟩ := ends_joinParts some_parts each
    refine trim_eq_self ?_ fun d last => ?_
    · obtain ⟨p, more, rfl⟩ := List.exists_cons_of_ne_nil some_parts
      have some_text := requote_ne_nil (each p (List.mem_cons_self ..))
      have first := (ends_requote (each p (List.mem_cons_self ..))).1
      intro d isHead
      refine first d ?_
      cases more with
      | nil => simpa [joinParts] using isHead
      | cons q more => rwa [joinParts_cons, List.head?_append_of_ne_nil _ some_text] at isHead
    · rw [same, List.getLast?_concat] at last
      obtain rfl := Option.some.inj last
      exact black

theorem splitFrom_ne_nil {cur text : List Char} {quote : Option Char} : ∀ p ∈ splitFrom cur quote text, p ≠ [] := by
  induction text generalizing cur quote with
  | nil =>
    intro p among
    cases quote <;> (unfold splitFrom at among; split at among <;> simp_all)
  | cons c text ih =>
    intro p among
    cases quote with
    | some q =>
      unfold splitFrom at among
      split at among <;> exact ih p among
    | none =>
      unfold splitFrom at among
      split at among
      · exact ih p among
      split at among
      · split at among
        · exact ih p among
        · rename_i begun
          rcases List.mem_cons.1 among with rfl | later
          · exact begun
          · exact ih p later
      · exact ih p among

theorem mem_splitFrom {cur text : List Char} {quote : Option Char} :
    ∀ p ∈ splitFrom cur quote text, ∀ c ∈ p, c ∈ cur ∨ c ∈ text := by
  induction text generalizing cur quote with
  | nil =>
    intro p among c inside
    cases quote <;> (unfold splitFrom at among; split at among <;> simp_all)
  | cons d text ih =>
    intro p among c inside
    have kept (more : c ∈ cur ∨ c ∈ text) : c ∈ cur ∨ c ∈ d :: text := more.imp_right (List.mem_cons_of_mem _)
    have longer (more : c ∈ cur ++ [d] ∨ c ∈ text) : c ∈ cur ∨ c ∈ d :: text := by
      rcases more with early | late
      · rcases List.mem_append.1 early with old | new
        · exact .inl old
        · exact .inr (List.mem_singleton.1 new ▸ List.mem_cons_self ..)
      · exact .inr (List.mem_cons_of_mem _ late)
    have apart (more : c ∈ ([] : List Char) ∨ c ∈ text) : c ∈ cur ∨ c ∈ d :: text :=
      .inr (List.mem_cons_of_mem _ (more.resolve_left List.not_mem_nil))
    cases quote with
    | some q =>
      unfold splitFrom at among
      split at among
      · exact kept (ih p among c inside)
      · exact longer (ih p among c inside)
    | none =>
      unfold splitFrom at among
      split at among
      · exact kept (ih p among c inside)
      split at among
      · split at among
        · exact apart (ih p among c inside)
        · rcases List.mem_cons.1 among with rfl | later
          · exact .inl inside
          · exact apart (ih p later c inside)
      · exact longer (ih p among c inside)

theorem redactPart_ne_nil {a : List Char} (some_text : a ≠ []) : redactPart a ≠ [] := by
  unfold redactPart
  dsimp only
  split
  · exact some_text
  · split
    · simp
    · exact some_text

theorem mem_redactPart {a : List Char} {c : Char} (inside : c ∈ redactPart a) : c ∈ a ∨ c ∈ '=' :: mask := by
  unfold redactPart at inside
  dsimp only at inside
  split at inside
  · exact .inl inside
  · split at inside
    · exact (List.mem_append.1 inside).imp_left fun early => (List.takeWhile_sublist _).mem early
    · exact .inl inside

theorem mem_joinParts {ps : List (List Char)} {c : Char} (inside : c ∈ joinParts ps) :
    c = ' ' ∨ c = '"' ∨ ∃ p ∈ ps, c ∈ p := by
  have quoted {p : List Char} (among : c ∈ requote p) : c = '"' ∨ c ∈ p := by
    unfold requote at among
    split at among
    · rcases List.mem_cons.1 among with first | later
      · exact .inl first
      · rcases List.mem_append.1 later with own | last
        · exact .inr own
        · exact .inl (List.mem_singleton.1 last)
    · exact .inr among
  induction ps with
  | nil => simp [joinParts] at inside
  | cons p ps ih =>
    cases ps with
    | nil =>
      rcases quoted (by simpa [joinParts] using inside) with quote | own
      · exact .inr (.inl quote)
      · exact .inr (.inr ⟨p, List.mem_cons_self .., own⟩)
    | cons q ps =>
      rw [joinParts_cons] at inside
      rcases List.mem_append.1 inside with here | later
      · rcases quoted here with quote | own
        · exact .inr (.inl quote)
        · exact .inr (.inr ⟨p, List.mem_cons_self .., own⟩)
      · rcases List.mem_cons.1 later with blank | more
        · exact .inl blank
        · rcases ih more with blank | quote | ⟨r, among, own⟩
          · exact .inl blank
          · exact .inr (.inl quote)
          · exact .inr (.inr ⟨r, List.mem_cons_of_mem _ among, own⟩)

/-- A character of a redacted value that the value does not have is one of the mask or of the quoting. -/
theorem mem_redacted {value : List Char} {c : Char}
    (inside : c ∈ joinParts ((splitAssignments value).map redactPart)) : c ∈ value ∨ c ∈ ' ' :: '"' :: '=' :: mask := by
  rcases mem_joinParts inside with rfl | rfl | ⟨p, among, own⟩
  · simp
  · simp
  · obtain ⟨a, isPart, rfl⟩ := List.mem_map.1 among
    rcases mem_redactPart own with old | new
    · exact .inl ((mem_splitFrom a isPart c old).resolve_left List.not_mem_nil)
    · exact .inr (List.mem_cons_of_mem _ (List.mem_cons_of_mem _ new))

/-! ### Directives -/

theorem directive_eq_some {key : String} {line value : List Char} :
    directive key line = some value ↔
      line.dropWhile space = key.toList ++ '=' :: value ∧ value.any terminator = false := by
  unfold directive after?
  constructor
  · intro found
    obtain ⟨begins, oneLine⟩ := Option.filter_eq_some_iff.1 found
    split at begins
    · rename_i isPrefix
      obtain ⟨rest, same⟩ := List.isPrefixOf_iff_prefix.1 isPrefix
      rw [← same, List.drop_left] at begins
      obtain rfl := Option.some.inj begins
      exact ⟨by rw [← same, List.append_assoc]; rfl, by simpa using oneLine⟩
    · cases begins
  · rintro ⟨begins, oneLine⟩
    have isPrefix : (key.toList ++ ['=']).isPrefixOf (line.dropWhile space) = true :=
      List.isPrefixOf_iff_prefix.2 ⟨value, by rw [begins, List.append_assoc]; rfl⟩
    rw [if_pos isPrefix, begins, show key.toList ++ '=' :: value = key.toList ++ ['='] ++ value by simp, List.drop_left]
    simp [oneLine]

/-- A line for the environment sets no other directive. -/
theorem directive_other {key : String} {line value : List Char} (found : directive "Environment" line = some value)
    (begins : key.toList.take 2 ≠ ['E', 'n']) (long : 2 ≤ key.toList.length) : directive key line = none := by
  by_contra some_value
  obtain ⟨other, isOther⟩ := Option.ne_none_iff_exists'.1 some_value
  have same := (directive_eq_some.1 isOther).1.symm.trans (directive_eq_some.1 found).1
  have cut := congrArg (List.take 2) same
  rw [List.take_append_of_le_length long] at cut
  exact begins cut

/-- A line changes the environment by its assignments, if it is one for the environment. -/
theorem environment_directLine (out : Directives) (line : List Char) :
    (directLine out line).environment = match directive "Environment" line with
      | some raw => (splitAssignments (trim raw)).foldl addAssignment out.environment
      | none => out.environment := by
  unfold directLine
  cases found : directive "Environment" line with
  | some raw =>
    rw [directive_other found (by decide) (by decide), directive_other found (by decide) (by decide),
      directive_other found (by decide) (by decide)]
  | none =>
    split
    · rfl
    · rfl
    · rfl
    · rename_i isSome
      cases isSome
    · rfl

theorem environment_foldl {α : Type} (texts : List α) (turn : Directives → α → Directives)
    (change : List (List Char × List Char) → α → List (List Char × List Char))
    (turns : ∀ out a, (turn out a).environment = change out.environment a) (out : Directives) :
    (texts.foldl turn out).environment = texts.foldl change out.environment := by
  induction texts generalizing out with
  | nil => rfl
  | cons a rest ih => rw [List.foldl_cons, ih, turns, List.foldl_cons]

/-- What a line does to the environment. -/
def environmentLine (environment : List (List Char × List Char)) (line : List Char) : List (List Char × List Char) :=
  match directive "Environment" line with
  | some raw => (splitAssignments (trim raw)).foldl addAssignment environment
  | none => environment

theorem environment_unitDirectives (text : List Char) :
    (unitDirectives [text]).environment = (lines text).foldl environmentLine [] :=
  environment_foldl (lines text) directLine environmentLine environment_directLine {}

/-! ### Reading what was redacted -/

theorem masked_append (first second : List (List Char × List Char)) :
    masked (first ++ second) = masked first ++ masked second := List.map_append

theorem masked_filter (name : List Char) (environment : List (List Char × List Char)) :
    (masked environment).filter (·.1 ≠ name) = masked (environment.filter (·.1 ≠ name)) := by
  rw [masked, masked, List.filter_map]
  rfl

/-- A masked part assigns the masked value. -/
theorem addAssignment_redactPart (environment : List (List Char × List Char)) (part : List Char) :
    addAssignment (masked environment) (redactPart part) = masked (addAssignment environment part) := by
  have sign : ∀ c ∈ part.takeWhile (· ≠ '='), decide (c ≠ '=') = true :=
    fun c among => List.mem_takeWhile_imp (p := fun c => decide (c ≠ '=')) among
  unfold redactPart
  dsimp only
  by_cases bare : part.takeWhile (· ≠ '=') = part
  · rw [if_pos bare, addAssignment, addAssignment, if_pos (.inr bare), if_pos (.inr bare)]
  by_cases unnamed : part.takeWhile (· ≠ '=') = []
  · have plain : secretName (part.takeWhile (· ≠ '=')) = false := by rw [unnamed]; decide
    rw [if_neg bare, if_neg (by rw [plain]; decide), addAssignment, addAssignment, if_pos (.inl unnamed), if_pos (.inl unnamed)]
  by_cases secret : secretName (part.takeWhile (· ≠ '=')) = true
  · have name : (part.takeWhile (· ≠ '=') ++ '=' :: mask).takeWhile (· ≠ '=') = part.takeWhile (· ≠ '=') := by
      rw [List.takeWhile_append_of_pos sign]
      simp
    have value : (part.takeWhile (· ≠ '=') ++ '=' :: mask).drop ((part.takeWhile (· ≠ '=')).length + 1) = mask := by
      rw [List.append_cons]
      exact List.drop_left' (by simp)
    have longer : part.takeWhile (· ≠ '=') ≠ part.takeWhile (· ≠ '=') ++ '=' :: mask := by simp
    rw [if_neg bare, if_pos secret, addAssignment, addAssignment, name, value,
      if_neg (not_or.2 ⟨unnamed, longer⟩), if_neg (not_or.2 ⟨unnamed, bare⟩), masked_append, masked_filter, masked, masked, List.map_singleton, if_pos secret]
  · rw [if_neg bare, if_neg secret, addAssignment, addAssignment, if_neg (not_or.2 ⟨unnamed, bare⟩),
      if_neg (not_or.2 ⟨unnamed, bare⟩), masked_append, masked_filter, masked, masked, List.map_singleton, if_neg secret]

theorem addAssignments_redacted (environment : List (List Char × List Char)) (parts : List (List Char)) :
    (parts.map redactPart).foldl addAssignment (masked environment) = masked (parts.foldl addAssignment environment) := by
  induction parts generalizing environment with
  | nil => rfl
  | cons part rest ih => rw [List.map_cons, List.foldl_cons, List.foldl_cons, addAssignment_redactPart, ih]

theorem newline_redactLine {line : List Char} (plain : '\n' ∉ line) : '\n' ∉ redactLine line := by
  unfold redactLine
  cases found : directive "Environment" line with
  | none => exact plain
  | some value =>
    have inLine : ∀ c ∈ value, c ∈ line := fun c among => by
      have kept : c ∈ line.dropWhile space := by
        rw [(directive_eq_some.1 found).1]
        exact List.mem_append_right _ (List.mem_cons_of_mem _ among)
      exact (List.dropWhile_sublist _).mem kept
    intro inside
    rcases List.mem_append.1 inside with white | rest
    · exact plain ((List.takeWhile_sublist _).mem white)
    · rcases List.mem_append.1 rest with key | joined
      · exact absurd key (by decide)
      · rcases mem_redacted joined with old | new
        · exact plain (inLine _ old)
        · exact absurd new (by decide)

theorem lines_redactUnit (text : List Char) : lines (redactUnit text) = (lines text).map redactLine := by
  refine List.splitOn_intercalate '\n' (fun l among => ?_) ?_
  · obtain ⟨line, isLine, rfl⟩ := List.mem_map.1 among
    exact newline_redactLine (splitOn_plain isLine)
  · exact fun none => List.splitOn_ne_nil '\n' text (List.map_eq_nil_iff.1 none)

/-- The value of a redacted line. -/
theorem directive_redactLine {line value : List Char} (found : directive "Environment" line = some value) :
    directive "Environment" (redactLine line) = some (joinParts ((splitAssignments value).map redactPart)) := by
  obtain ⟨-, oneLine⟩ := directive_eq_some.1 found
  refine directive_eq_some.2 ⟨?_, ?_⟩
  · have white : ∀ c ∈ line.takeWhile space, space c = true := fun c among => List.mem_takeWhile_imp among
    rw [redactLine, found]
    dsimp only
    rw [List.dropWhile_append_of_pos white]
    rfl
  · rw [List.any_eq_false] at oneLine ⊢
    intro c among
    rcases mem_redacted among with old | new
    · exact oneLine c old
    · have fixed : (' ' :: '"' :: '=' :: mask).all (fun c => !terminator c) = true := by decide
      simpa using List.all_eq_true.1 fixed c new

/-- A line whose masked parts are safe, and whose last quote does not reach into white space at the end. -/
def SafeLine (line : List Char) : Prop :=
  ∀ value ∈ directive "Environment" line,
    splitAssignments (trim value) = splitAssignments value ∧ ∀ a ∈ splitAssignments value, Safe (redactPart a)

instance : DecidablePred SafeLine := fun line =>
  inferInstanceAs (Decidable (∀ value ∈ directive "Environment" line,
    splitAssignments (trim value) = splitAssignments value ∧ ∀ a ∈ splitAssignments value, Safe (redactPart a)))

/-- The assignments of a safe line are read back from the redacted one, masked. -/
theorem environmentLine_redactLine {line : List Char} (environment : List (List Char × List Char)) (safe : SafeLine line) :
    environmentLine (masked environment) (redactLine line) = masked (environmentLine environment line) := by
  unfold environmentLine
  cases found : directive "Environment" line with
  | none =>
    have same : redactLine line = line := by rw [redactLine, found]
    rw [same, found]
  | some value =>
    obtain ⟨closed, each⟩ := safe value found
    have parts : ∀ p ∈ (splitAssignments value).map redactPart, Safe p ∧ p ≠ [] := by
      intro p among
      obtain ⟨a, isPart, rfl⟩ := List.mem_map.1 among
      exact ⟨each a isPart, redactPart_ne_nil (splitFrom_ne_nil a isPart)⟩
    rw [directive_redactLine found]
    dsimp only
    rw [trim_joinParts fun p among => (parts p among).2, split_joinParts parts, closed, addAssignments_redacted]

/-- The environment of a redacted unit file is that of the unit file, masked, where each of its lines is safe. -/
theorem redacted_environment (text : List Char) (safe : ∀ line ∈ lines text, SafeLine line) :
    (unitDirectives [redactUnit text]).environment = masked (unitDirectives [text]).environment := by
  rw [environment_unitDirectives, environment_unitDirectives, lines_redactUnit, List.foldl_map]
  have along (ls : List (List Char)) (each : ∀ line ∈ ls, SafeLine line) (environment : List (List Char × List Char)) :
      ls.foldl (fun environment line => environmentLine environment (redactLine line)) (masked environment) =
        masked (ls.foldl environmentLine environment) := by
    induction ls generalizing environment with
    | nil => rfl
    | cons line rest ih =>
      rw [List.foldl_cons, List.foldl_cons, environmentLine_redactLine environment (each line (List.mem_cons_self ..)),
        ih fun other among => each other (List.mem_cons_of_mem _ among)]
  exact along (lines text) safe []

/-- A unit file with a secret, a value with white space and a quote in it, and an assignment without quotes. -/
def plainUnit : List Char := "[Service]\nEnvironment=PORT=80 \"MOTD=it's up\"\nEnvironment=\"API_TOKEN=a b\"\n".toList

theorem plainUnit_masked :
    (unitDirectives [redactUnit plainUnit]).environment = masked (unitDirectives [plainUnit]).environment :=
  redacted_environment plainUnit (by decide)

/-- A value with a quote and no white space loses the quote. -/
theorem quote_lost :
    ¬∀ text, (unitDirectives [redactUnit text]).environment = masked (unitDirectives [text]).environment := by
  intro each
  have lost := each "Environment=\"MOTD=it's\"".toList
  revert lost
  decide

end OpenVibeHost.EnvFile
