import Mathlib.Data.List.Forall2
import Mathlib.Tactic.Common
import Rollout.Output.Workflow
import Rollout.Proofs.FileTree.PathText
import Rollout.Text.Shell

/-!
# The command of a job

A job names its projects on a command line, as they are. A shell takes this line apart into the
program, its arguments and the redirection exactly if every name is a plain word: a name with a
blank, a quote or an operator is not one argument, and what it hides is read as arguments of its
own (`command_words`). Names without blanks can at least be told apart on the line.
-/

namespace Rollout

namespace Text

variable {sep : Char}

theorem joinWith_cons (piece : List Char) {rest : List (List Char)} (h : rest ≠ []) :
    joinWith sep (piece :: rest) = piece ++ sep :: joinWith sep rest := by
  cases rest with
  | nil => exact absurd rfl h
  | cons next rest => rfl

/-- What the separator is not is counted in the pieces. -/
theorem countP_joinWith {p : Char → Bool} (h : p sep = false) (pieces : List (List Char)) :
    (joinWith sep pieces).countP p = pieces.flatten.countP p := by
  induction pieces with
  | nil => rfl
  | cons piece rest ih =>
    cases rest with
    | nil => simp [joinWith]
    | cons next rest =>
      rw [joinWith_cons _ (by simp), List.countP_append, List.countP_cons, ih, h]
      simp

end Text

namespace Shell

/-- A character that means nothing to a shell. -/
def isPlain (c : Char) : Bool := !(isBlank c || isOperator c || isQuoting c || isExpanding c)

/-- A text that is one word of a line, as it is: it is not empty, no character means anything to
the shell, and it does not begin a comment. -/
def PlainWord (text : String) : Prop :=
  text.toList ≠ [] ∧ (∀ c ∈ text.toList, isPlain c = true) ∧ text.toList.head? ≠ some '#'

instance (text : String) : Decidable (PlainWord text) :=
  have : Decidable (∀ c ∈ text.toList, isPlain c = true) := List.decidableBAll _ _
  inferInstanceAs (Decidable (_ ∧ _ ∧ _))

variable {s s' : State} {c : Char} {cs : List Char}

theorem run_cons (s : State) (c : Char) (cs : List Char) :
    run s (c :: cs) = (step s c).bind (run · cs) := List.foldlM_cons

theorem run_append (s : State) (xs ys : List Char) :
    run s (xs ++ ys) = (run s xs).bind (run · ys) := List.foldlM_append

/-! ### Plain words -/

theorem isPlain_iff : isPlain c = true ↔ isBlank c = false ∧ isOperator c = false ∧
    isQuoting c = false ∧ isExpanding c = false := by
  simp [isPlain, and_assoc]

theorem step_plain (hmode : s.mode = .bare) (hc : isPlain c = true)
    (hstart : s.word = none → c ≠ '#') : step s c = some (s.add [c]) := by
  obtain ⟨hblank, hoperator, hquoting, hexpanding⟩ := isPlain_iff.1 hc
  have hcomment : ¬ (c = '#' ∧ s.word = none) := fun h => hstart h.2 h.1
  simp only [isQuoting, List.contains_cons, List.contains_nil, Bool.or_eq_false_iff,
    beq_eq_false_iff_ne] at hquoting
  simp [step, hmode, hblank, hoperator, hcomment, hquoting, hexpanding]

theorem add_add (s : State) (xs ys : List Char) : (s.add xs).add ys = s.add (xs ++ ys) := by
  simp [State.add]

theorem run_add (hmode : s.mode = .bare) {xs : List Char} (hcs : ∀ c ∈ cs, isPlain c = true) :
    run (s.add xs) cs = some (s.add (xs ++ cs)) := by
  induction cs generalizing xs with
  | nil => simp [run]
  | cons c cs ih =>
    have hstep : step (s.add xs) c = some ((s.add xs).add [c]) :=
      step_plain hmode (hcs c List.mem_cons_self) nofun
    rw [run_cons, hstep, add_add, Option.bind_some,
      ih fun d hd => hcs d (List.mem_cons_of_mem _ hd), List.append_assoc, List.singleton_append]

theorem run_plain {text : String} (h : PlainWord text) (hmode : s.mode = .bare) :
    run s text.toList = some (s.add text.toList) := by
  obtain ⟨hne, hplain, hstart⟩ := h
  generalize text.toList = cs at hne hplain hstart
  cases cs with
  | nil => exact absurd rfl hne
  | cons c cs =>
    have hstep : step s c = some (s.add [c]) :=
      step_plain hmode (hplain c List.mem_cons_self) fun _ h => hstart (congrArg some h)
    rw [run_cons, hstep, Option.bind_some,
      run_add hmode fun d hd => hplain d (List.mem_cons_of_mem _ hd), List.singleton_append]

/-- Characters that are one part of a line, wherever a part can begin. -/
def Alone (piece : List Char) (token : Token) : Prop :=
  ∀ s : State, s.mode = .bare → s.word = none →
    ∃ s', run s piece = some s' ∧ s'.mode = .bare ∧
      s'.close = { s with tokens := s.tokens ++ [token] }

theorem alone_word {text : String} (h : PlainWord text) : Alone text.toList (.word text) := by
  intro s hmode hword
  refine ⟨_, run_plain h hmode, hmode, ?_⟩
  simp [State.close, State.add, hword]

theorem alone_operator {c : Char} (hblank : isBlank c = false) (h : isOperator c = true) :
    Alone [c] (.operator c) := by
  intro s hmode hword
  refine ⟨s.operator c, ?_, hmode, ?_⟩
  · simp [run, step, hmode, hblank, h]
  · simp [State.close, State.operator, hword]

theorem step_blank (hmode : s.mode = .bare) : step s ' ' = some s.close := by
  simp [step, hmode, isBlank]

/-- Pieces with blanks between them are the parts of the line. -/
theorem run_joinWith {pieces : List (List Char)} {tokens : List Token}
    (h : List.Forall₂ Alone pieces tokens) {s : State} (hmode : s.mode = .bare)
    (hword : s.word = none) :
    ∃ s', run s (Text.joinWith ' ' pieces) = some s' ∧ s'.mode = .bare ∧
      s'.close.tokens = s.tokens ++ tokens := by
  induction h generalizing s with
  | nil => exact ⟨s, rfl, hmode, by simp [State.close, hword]⟩
  | @cons piece token pieces tokens hfirst hrest ih =>
    obtain ⟨s₁, hrun, hmode₁, hclose⟩ := hfirst s hmode hword
    cases pieces with
    | nil =>
      cases hrest
      exact ⟨s₁, hrun, hmode₁, by rw [hclose]⟩
    | cons next pieces =>
      obtain ⟨s₂, hrun₂, hmode₂, hclose₂⟩ :=
        ih (s := { s with tokens := s.tokens ++ [token] }) hmode hword
      refine ⟨s₂, ?_, hmode₂, ?_⟩
      · rw [Text.joinWith, run_append, hrun, Option.bind_some, run_cons, step_blank hmode₁,
          Option.bind_some, hclose, hrun₂]
        simp
      · rw [hclose₂, List.append_assoc, List.singleton_append]

/-! ### Quoting characters

A quoting character that is read outside of quotes is in no word. So a line whose words keep all
of them has none, and then its words are plain. -/

/-- The text of a word. -/
def Token.chars : Token → List Char
  | .word text => text.toList
  | .operator _ => []

/-- The text of all words. -/
def State.text (s : State) : List Char := s.tokens.flatMap Token.chars ++ s.word.getD []

/-- The number of quoting characters in the words, with a backslash that may yet be put there. -/
def State.quotes (s : State) : Nat :=
  s.text.countP isQuoting + if s.mode = .doubleEscaped then 1 else 0

@[simp]
theorem text_close (s : State) : s.close.text = s.text := by
  cases hword : s.word <;> simp [State.text, State.close, Token.chars, hword]

@[simp]
theorem text_operator (s : State) (c : Char) : (s.operator c).text = s.text := by
  rw [← text_close s]
  simp [State.text, State.operator, State.close, Token.chars]

@[simp]
theorem text_add (s : State) (cs : List Char) : (s.add cs).text = s.text ++ cs := by
  simp [State.text, State.add]

@[simp]
theorem text_within (s : State) (mode : Mode) : (s.within mode).text = s.text := rfl

@[simp]
theorem mode_close (s : State) : s.close.mode = s.mode := rfl

@[simp]
theorem mode_operator (s : State) (c : Char) : (s.operator c).mode = s.mode := rfl

@[simp]
theorem mode_add (s : State) (cs : List Char) : (s.add cs).mode = s.mode := rfl

@[simp]
theorem mode_within (s : State) (mode : Mode) : (s.within mode).mode = mode := rfl

/-- No step adds quoting characters that were not read. -/
theorem quotes_step (h : step s c = some s') : s'.quotes ≤ s.quotes + [c].countP isQuoting := by
  have hbackslash : isQuoting '\\' = true := by decide
  rw [step] at h
  split at h
  all_goals
    rename_i hmode
    split_ifs at h
  all_goals cases h
  all_goals simp_all [State.quotes, List.countP_cons]
  all_goals omega

theorem quotes_run (h : run s cs = some s') : s'.quotes ≤ s.quotes + cs.countP isQuoting := by
  induction cs generalizing s with
  | nil =>
    cases h
    exact Nat.le_refl _
  | cons c cs ih =>
    rw [run_cons] at h
    obtain ⟨s₁, hstep, hrun⟩ := Option.bind_eq_some_iff.1 h
    have hfirst := quotes_step hstep
    have hrest := ih hrun
    rw [List.countP_cons] at hfirst ⊢
    simp only [List.countP_nil] at hfirst
    omega

theorem isOpen_iff : s.isOpen = true ↔ s.mode = .bare ∨ s.mode = .comment := by
  simp [State.isOpen]

/-- Outside of quotes a quoting character is lost. -/
theorem quotes_step_of_isOpen (h : step s c = some s') (hopen : s.isOpen = true)
    (hc : isQuoting c = true) : s'.quotes ≤ s.quotes := by
  rw [step] at h
  rcases isOpen_iff.1 hopen with hmode | hmode
  · simp only [hmode] at h
    split_ifs at h
    all_goals cases h
    all_goals simp_all [State.quotes, isQuoting]
  · simp only [hmode] at h
    split_ifs at h
    all_goals cases h
    all_goals simp_all [State.quotes]

/-- All words are plain, the one that has begun as well. -/
structure State.Clean (s : State) : Prop where
  tokens : ∀ text, .word text ∈ s.tokens → PlainWord text
  word : ∀ cs, s.word = some cs → PlainWord (String.ofList cs)

theorem State.Clean.close (h : s.Clean) : s.close.Clean where
  tokens text hmem := by
    rcases List.mem_append.1 hmem with hmem | hmem
    · exact h.tokens text hmem
    · obtain ⟨cs, hcs, heq⟩ := Option.map_eq_some_iff.1 (Option.mem_toList.1 hmem)
      obtain rfl : String.ofList cs = text := Token.word.inj heq
      exact h.word cs hcs
  word := nofun

theorem State.Clean.operator (h : s.Clean) (c : Char) : (s.operator c).Clean where
  tokens text hmem := by
    rcases List.mem_append.1 hmem with hmem | hmem
    · exact h.close.tokens text hmem
    · simp at hmem
  word := nofun

theorem State.Clean.within (h : s.Clean) (mode : Mode) : (s.within mode).Clean := ⟨h.tokens, h.word⟩

theorem State.Clean.add (h : s.Clean) (hc : isPlain c = true) (hstart : s.word = none → c ≠ '#') :
    (s.add [c]).Clean where
  tokens := h.tokens
  word cs hcs := by
    obtain rfl : s.word.getD [] ++ [c] = cs := Option.some.inj hcs
    cases hword : s.word with
    | none => simp [PlainWord, hc, hstart hword]
    | some cs =>
      obtain ⟨hne, hplain, hhead⟩ := h.word cs hword
      rw [String.toList_ofList] at hne hplain hhead
      refine ⟨by simp, fun d hd => ?_, ?_⟩
      · rw [String.toList_ofList, Option.getD_some, List.mem_append, List.mem_singleton] at hd
        rcases hd with hd | rfl
        · exact hplain d hd
        · exact hc
      · rwa [String.toList_ofList, Option.getD_some, List.head?_append_of_ne_nil _ hne]

theorem clean_step (hopen : s.isOpen = true) (hs : s.Clean) (hc : isQuoting c = false)
    (h : step s c = some s') : s'.isOpen = true ∧ s'.Clean := by
  rw [step] at h
  rcases isOpen_iff.1 hopen with hmode | hmode
  · simp only [hmode] at h
    split_ifs at h with hblank hoperator hcomment hbackslash hquote happostrophe hexpanding
    all_goals cases h
    · exact ⟨hopen, hs.close⟩
    · exact ⟨hopen, hs.operator c⟩
    · exact ⟨rfl, hs.within _⟩
    · simp [isQuoting, hbackslash] at hc
    · simp [isQuoting, hquote] at hc
    · simp [isQuoting, happostrophe] at hc
    · have hplain : isPlain c = true := isPlain_iff.2 (by simp_all)
      exact ⟨hopen, hs.add hplain fun hword heq => hcomment ⟨heq, hword⟩⟩
  · simp only [hmode] at h
    split_ifs at h
    all_goals cases h
    · exact ⟨rfl, (hs.operator c).within _⟩
    · exact ⟨hopen, hs⟩

/-- As long as no quoting character is lost all words are plain. -/
theorem clean_run (hopen : s.isOpen = true) (hs : s.Clean) (h : run s cs = some s')
    (hkept : s.quotes + cs.countP isQuoting ≤ s'.quotes) : s'.Clean := by
  induction cs generalizing s with
  | nil =>
    cases h
    exact hs
  | cons c cs ih =>
    rw [run_cons] at h
    obtain ⟨s₁, hstep, hrun⟩ := Option.bind_eq_some_iff.1 h
    rw [List.countP_cons] at hkept
    cases hc : isQuoting c with
    | true =>
      have hlost := quotes_step_of_isOpen hstep hopen hc
      have hrest := quotes_run hrun
      rw [hc, if_pos rfl] at hkept
      omega
    | false =>
      obtain ⟨hopen₁, hs₁⟩ := clean_step hopen hs hc hstep
      have hfirst := quotes_step hstep
      simp only [hc, List.countP_cons, List.countP_nil] at hfirst hkept
      exact ih hopen₁ hs₁ hrun (by omega)

/-- A line whose words have all of its quoting characters has plain words only. -/
theorem plainWord_of_tokens? {line : String} {tokens : List Token} (h : tokens? line = some tokens)
    (hkept : line.toList.countP isQuoting ≤ (tokens.flatMap Token.chars).countP isQuoting) :
    ∀ text, .word text ∈ tokens → PlainWord text := by
  obtain ⟨s, hs, rfl⟩ := Option.map_eq_some_iff.1 h
  obtain ⟨hrun, hopen⟩ := Option.filter_eq_some_iff.1 hs
  have htext : s.close.tokens.flatMap Token.chars = s.text := by
    rw [← text_close]
    simp [State.text, State.close]
  rw [htext] at hkept
  have hclean : s.Clean := by
    refine clean_run rfl ⟨by simp, by simp⟩ hrun ?_
    have hstart : ({} : State).quotes = 0 := rfl
    rw [hstart, Nat.zero_add]
    exact Nat.le_trans hkept (Nat.le_add_right _ _)
  exact hclean.close.tokens

end Shell

namespace Workflow.Job

/-- What a command line with this selection is to be for a shell. -/
def tokens (projects : List String) : List Shell.Token :=
  [.word "keel", .word "compile"] ++
    projects.flatMap (fun name => [.word "--project", .word name]) ++
    [.operator '>', .word "profiles.json"]

/-- The pieces of the command, as they are written with blanks between them. -/
def pieces (projects : List String) : List (List Char) :=
  ["keel".toList, "compile".toList] ++
    projects.flatMap (fun name => ["--project".toList, name.toList]) ++
    [['>'], "profiles.json".toList]

theorem toList_selection (projects : List String) :
    (String.join (projects.map (" --project " ++ ·)) ++ " > profiles.json").toList =
      ' ' :: Text.joinWith ' ' (projects.flatMap (fun name => ["--project".toList, name.toList]) ++
        [['>'], "profiles.json".toList]) := by
  induction projects with
  | nil => rfl
  | cons name projects ih =>
    rw [List.flatMap_cons, List.append_assoc, List.cons_append, List.singleton_append,
      Text.joinWith_cons _ (by simp), Text.joinWith_cons _ (by simp), List.map_cons,
      String.join_cons, String.append_assoc, String.toList_append, ih]
    simp

theorem toList_command (job : Job) :
    job.command.toList = Text.joinWith ' ' (pieces job.projects) := by
  rw [command, String.append_assoc, String.toList_append, toList_selection, pieces]
  rw [List.append_assoc, List.cons_append, List.cons_append, List.nil_append]
  rw [Text.joinWith_cons _ (by simp), Text.joinWith_cons _ (by simp)]
  rfl

/-- Plain names are one argument each. -/
theorem tokens?_command (job : Job) (h : ∀ name ∈ job.projects, Shell.PlainWord name) :
    Shell.tokens? job.command = some (tokens job.projects) := by
  have hfixed : ∀ text ∈ ["keel", "compile", "--project", "profiles.json"],
      Shell.PlainWord text := by decide
  have hselection (names : List String) (hnames : ∀ name ∈ names, Shell.PlainWord name) :
      List.Forall₂ Shell.Alone
        (names.flatMap (fun name => ["--project".toList, name.toList]))
        (names.flatMap (fun name => [.word "--project", .word name])) := by
    induction names with
    | nil => exact .nil
    | cons name names ih =>
      refine .cons (Shell.alone_word (hfixed _ (by simp))) (.cons ?_ (ih ?_))
      · exact Shell.alone_word (hnames name List.mem_cons_self)
      · exact fun other hother => hnames other (List.mem_cons_of_mem _ hother)
  have hall : List.Forall₂ Shell.Alone (pieces job.projects) (tokens job.projects) := by
    refine List.rel_append (List.rel_append ?_ (hselection _ h)) ?_
    · exact .cons (Shell.alone_word (hfixed _ (by simp)))
        (.cons (Shell.alone_word (hfixed _ (by simp))) .nil)
    · exact .cons (Shell.alone_operator (by decide) (by decide))
        (.cons (Shell.alone_word (hfixed _ (by simp))) .nil)
  obtain ⟨s, hrun, hmode, htokens⟩ := Shell.run_joinWith hall (s := {}) rfl rfl
  rw [Shell.tokens?, toList_command, hrun]
  simp [Option.filter, Shell.State.isOpen, hmode, htokens]

/-- The words have all characters of the pieces but the redirection. -/
theorem countP_command (job : Job) :
    job.command.toList.countP Shell.isQuoting =
      ((tokens job.projects).flatMap Shell.Token.chars).countP Shell.isQuoting := by
  have hfront : ["keel".toList, "compile".toList].flatten =
      [.word "keel", .word "compile"].flatMap Shell.Token.chars := by decide
  have hback : [['>'], "profiles.json".toList].flatten.countP Shell.isQuoting =
      ([.operator '>', .word "profiles.json"].flatMap Shell.Token.chars).countP
        Shell.isQuoting := by decide
  have hselection : (job.projects.flatMap fun name => ["--project".toList, name.toList]).flatten =
      (job.projects.flatMap fun name => [.word "--project", .word name]).flatMap
        Shell.Token.chars := by
    simp [List.flatten_eq_flatMap, List.flatMap_assoc, Shell.Token.chars]
  rw [toList_command, Text.countP_joinWith (by decide), pieces, tokens]
  simp only [List.flatten_append, List.flatMap_append, List.countP_append, hfront, hselection,
    hback]

theorem mem_tokens {projects : List String} {name : String} (h : name ∈ projects) :
    .word name ∈ tokens projects := by
  have hselection : Shell.Token.word name ∈
      projects.flatMap fun name => [.word "--project", .word name] :=
    List.mem_flatMap.2 ⟨name, h, by simp⟩
  simp [tokens, hselection]

theorem eq_of_selection {projects others : List String}
    (h : projects.flatMap (fun name => ["--project".toList, name.toList]) =
      others.flatMap (fun name => ["--project".toList, name.toList])) : projects = others := by
  induction projects generalizing others with
  | nil => cases others with
    | nil => rfl
    | cons => cases h
  | cons name projects ih => cases others with
    | nil => cases h
    | cons other others =>
      simp only [List.flatMap_cons, List.cons_append, List.nil_append, List.cons.injEq, true_and,
        String.toList_inj] at h
      rw [h.1, ih h.2]

/-- Names without blanks can be read off the line. -/
theorem splitOn_command (job : Job) (h : ∀ name ∈ job.projects, ' ' ∉ name.toList) :
    Text.splitOn ' ' job.command.toList = pieces job.projects := by
  rw [toList_command]
  refine Text.splitOn_joinWith (by simp [pieces]) fun piece hpiece => ?_
  simp only [pieces, List.mem_append, List.mem_flatMap, List.mem_cons, List.not_mem_nil,
    or_false] at hpiece
  rcases hpiece with ((rfl | rfl) | ⟨name, hname, rfl | rfl⟩) | rfl | rfl
  · decide
  · decide
  · decide
  · exact h name hname
  · decide
  · decide

/-- A shell takes the command apart into the program, its arguments and the redirection exactly if
all names are plain words. Selections whose names have no blanks have different commands. -/
theorem command_words (job : Job) :
    (Shell.tokens? job.command = some (tokens job.projects) ↔
      ∀ name ∈ job.projects, Shell.PlainWord name) ∧
    ∀ other : Job, (∀ name ∈ job.projects ++ other.projects, ' ' ∉ name.toList) →
      other.command = job.command → other.projects = job.projects := by
  refine ⟨⟨fun h name hname => ?_, tokens?_command job⟩, fun other hblank heq => ?_⟩
  · exact Shell.plainWord_of_tokens? h (Nat.le_of_eq (countP_command job)) name (mem_tokens hname)
  · have hown := splitOn_command job fun name hname => hblank name (List.mem_append_left _ hname)
    have hother := splitOn_command other fun name hname =>
      hblank name (List.mem_append_right _ hname)
    rw [heq, hown] at hother
    exact (eq_of_selection (List.append_cancel_left (List.append_cancel_right hother))).symm

/-- The command for a service and a worker, and that it is the command of no other selection of
names without blanks. -/
theorem service_and_worker_named :
    Shell.tokens? (command ⟨.helm, ["api", "worker-2"]⟩) = some [.word "keel", .word "compile",
        .word "--project", .word "api", .word "--project", .word "worker-2", .operator '>',
        .word "profiles.json"] ∧
      command ⟨.firebase, ["api --project worker-2"]⟩ = command ⟨.helm, ["api", "worker-2"]⟩ ∧
      command ⟨.firebase, ["worker-2", "api"]⟩ ≠ command ⟨.helm, ["api", "worker-2"]⟩ := by
  obtain ⟨hwords, hcommand⟩ := command_words ⟨.helm, ["api", "worker-2"]⟩
  refine ⟨hwords.2 (by decide), by decide +kernel, fun heq => ?_⟩
  have hprojects := hcommand ⟨.firebase, ["worker-2", "api"]⟩ (by decide) heq
  exact absurd hprojects (by decide)

/-- A document with projects of these names that are deployed as charts. -/
def documentText (names : List String) : String :=
  let project (name : String) : String := "\"" ++ name ++
    "\": \x7b\"root\": \"apps\", \"architect\": \x7b\"deploy\": " ++
    "\x7b\"deployer\": \"helm\"\x7d\x7d\x7d"
  "\x7b\"projects\": \x7b" ++ Text.joined ", " (names.map project) ++ "\x7d\x7d"

/-- The jobs of the workspace that such a document holds. -/
def jobsOf (names : List String) : Option (List Job) :=
  (Document.read ⟨"keel.json"⟩ (documentText names)).toOption.map jobs

/-- A name with a blank is two arguments, and the name of one project can ask for two. -/
theorem blank_in_name_cut :
    jobsOf ["web app"] = some [⟨.helm, ["web app"]⟩] ∧
      Shell.tokens? (command ⟨.helm, ["web app"]⟩) = some [.word "keel", .word "compile",
        .word "--project", .word "web", .word "app", .operator '>', .word "profiles.json"] ∧
      Shell.tokens? (command ⟨.helm, ["web app"]⟩) ≠ some (tokens ["web app"]) ∧
      jobsOf ["api --project web"] = some [⟨.helm, ["api --project web"]⟩] ∧
      jobsOf ["api", "web"] = some [⟨.helm, ["api", "web"]⟩] ∧
      command ⟨.helm, ["api --project web"]⟩ = command ⟨.helm, ["api", "web"]⟩ := by
  refine ⟨?_, ?_, ?_, ?_, ?_, ?_⟩ <;> decide +kernel

end Workflow.Job
end Rollout
