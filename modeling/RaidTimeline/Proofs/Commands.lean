import RaidTimeline.Command.Outcome
import RaidTimeline.Data.Yaml
import RaidTimeline.Proofs.CanonicalText
import RaidTimeline.Proofs.Stopping

/-!
# What the commands have in common

A file that can be transformed can be parsed, and the tokens of a file that can be parsed can be
listed.  This holds under any settings, also under tables with the empty word, with which a lexer
may hand out the same token for ever: a source text that is read to its end has no such token, and
no unreadable text.

Main results:

- Theorem {lit}`exists_derives_of_parseSource`: what accepted statements are made of.
- Theorem {lit}`kind_ne_unknown_of_parseSource`: accepted source texts hold no unreadable text.
- Theorem {lit}`generate_isOk_iff`: which programs have a canonical form of a given kind.
- Theorem {lit}`Invocation.outcome_cases`: all commands stop alike before they begin, or each runs
  under the settings that they share.
- Definition {lit}`CommandsAgree`: what the outcomes of the three commands have in common.
- Theorem {lit}`commandsAgree`: the commands agree on every file.
-/

namespace RaidTimeline

/-! ## Reading to the end -/

/-- The run of an accepted source text settles with its statements and without an error. -/
theorem outcome_of_parseSource {v : Vocabulary} {source file : Text} {p : Program}
    (h : parseSource v source file = .ok p) :
    (sourceRun v source).outcome = .ok ⟨p.body, none⟩ := by
  rw [parseSource_eq] at h
  cases hresult : ProgramEnd.result (sourceRun v source).outcome with
  | error e =>
    rw [hresult] at h
    contradiction
  | ok statements =>
    have hok := ProgramEnd.eq_ok_of_result hresult
    rw [hresult] at h
    cases h
    rw [Run.program, hok]
    rfl

/-- Whatever the tables hold, the last token of an accepted source text is its end, and its
statements are made of tokens in front of that. -/
theorem exists_derives_of_parseSource {v : Vocabulary} {source file : Text} {p : Program}
    (h : parseSource v source file = .ok p) :
    ∃ body last ts, (Cursor.ofText (normalize source)).visible v = body ++ [last] ∧
      last.kind = .eof ∧ (∀ t ∈ body, t.isLast = false) ∧ ts ⊆ body ++ [last] ∧
        Derives v.logTypes ts p.body := by
  rcases (Cursor.ofText (normalize source)).exists_visible_eq v with
    ⟨body, last, hvisible, hkind, hwidth, hbody⟩
  have hok := outcome_of_parseSource h
  rw [sourceRun] at hok
  have hawaits : (Lexer.ofSource v source).Awaits (body ++ [last]) :=
    hvisible ▸ Lexer.awaits_visible rfl
  have hcomment : last.kind ≠ .comment := by
    rcases hkind with hlast | hkeyword
    · rcases Token.isLast_iff.mp hlast with hend | hend <;> simp [hend]
    · simp [hkeyword]
  rcases exists_leads_of_run_ok hawaits hwidth hcomment hok with
    ⟨us, t, final, hprefix, -, hleads, houtcome⟩
  have hsubset : us ++ [t] ⊆ body ++ [last] := by
    intro u hu
    simpa using hprefix.subset hu
  -- The token that settles the statements is the end of the text, and no token before is.
  rcases ProgramDraft.kind_of_outcome hleads houtcome with ⟨hend, hderives⟩
  have hlast : last.kind = .eof := by
    have hmem : t ∈ body ++ [last] := hsubset (by simp)
    rcases List.mem_append.mp hmem with hmem | hmem
    · have hnot := hbody t hmem
      simp [Token.isLast, hend] at hnot
    · exact List.mem_singleton.mp hmem ▸ hend
  refine ⟨body, last, _, hvisible, hlast, hbody, ?_, hderives⟩
  exact fun u hu => hsubset (List.mem_append_left _ (List.mem_filter.mp hu).1)

/-- Whatever the tables hold, no view of an accepted source text shows unreadable text. -/
theorem kind_ne_unknown_of_parseSource {v : Vocabulary} {source file : Text} {p : Program}
    (h : parseSource v source file = .ok p) (view : Lexer.View) :
    ∀ t ∈ tokensOf v source view, t.kind ≠ .unknown := by
  intro t ht hkind
  rcases exists_derives_of_parseSource h with ⟨body, last, -, hvisible, hend, hbody, -⟩
  have hmem : t ∈ (Cursor.ofText (normalize source)).visible v :=
    List.mem_filter.mpr ⟨tokensOf_subset v source view ht, by simp [hkind]⟩
  rw [hvisible, List.mem_append, List.mem_singleton] at hmem
  rcases hmem with hmem | rfl
  · have hnot := hbody t hmem
    simp [Token.isLast, hkind] at hnot
  · exact absurd (hend.symm.trans hkind) (by decide)

/-! ## Canonical forms -/

/-- A program has a canonical form of the kind that is asked for exactly if its statements have
one and the kind exists. -/
theorem generate_isOk_iff {p : Program} {settings : Settings} {target : Option Text} :
    (∃ text, generate p.toNode (targetOptions target) (some settings) = .ok text) ↔
      (∀ s ∈ p.body, s.HasCanonicalForm) ∧ target.getD settings.target = "cactbot".toList := by
  have htarget : targetOf (targetOptions target) (some settings) =
      .ok (.string (target.getD settings.target)) := by
    cases target <;> rfl
  have hknown : isTarget (.string (target.getD settings.target)) = true ↔
      target.getD settings.target = "cactbot".toList := by
    simp [isTarget, targets]
  rw [generate, htarget, ← hknown]
  constructor
  · rintro ⟨text, htext⟩
    simp only at htext
    split_ifs at htext with hkind
    cases hcanonical : p.toNode.canonical with
    | error u => simp [hcanonical, Except.mapError] at htext
    | ok line => exact ⟨Program.hasCanonicalForm hcanonical, hkind⟩
  · rintro ⟨hforms, hkind⟩
    have hcanonical : p.toNode.canonical = _ := Program.canonical_eq hforms
    refine ⟨Text.join ['\n'] (p.body.map Statement.text), ?_⟩
    simp only [hkind, if_true, hcanonical]
    rfl

/-! ## The outcomes of the commands -/

/-- A path can be written if some text can be stored there. -/
def Store.CanWrite (store : Store) (path : Text) : Prop :=
  ∃ text store', store.writeText path text = .ok store'

/-- Whether a text can be stored does not depend on the text. -/
theorem Store.CanWrite.exists_writeText {store : Store} {path : Text} (h : store.CanWrite path)
    (text : Text) : ∃ store', store.writeText path text = .ok store' := by
  rcases h with ⟨other, store', h⟩
  unfold writeText at h ⊢
  simp only at h ⊢
  split at h
  · contradiction
  · exact ⟨_, rfl⟩
  · split_ifs at h ⊢
    exact ⟨_, rfl⟩
  · contradiction

section

variable {store : Store} {settings : Settings} {file : Text}

/-- A file can be transformed exactly if it can be parsed and its program has a canonical form of
the kind that is asked for. -/
theorem transformFile_isOk_iff {target : Option Text} :
    (∃ text, transformFile store file (targetOptions target) (some settings) = .ok text) ↔
      ∃ program, parseFile store file (some settings) = .ok program ∧
        (∀ s ∈ program.body, s.HasCanonicalForm) ∧
          target.getD settings.target = "cactbot".toList := by
  rw [transformFile]
  cases parseFile store file (some settings) with
  | error error => cases error <;> simp
  | ok program => simp only [generate_isOk_iff, Except.ok.injEq, exists_eq_left']

/-- A transformation succeeds exactly if the file can be transformed and the output, where it is
stored, can be written. -/
theorem status_runTransform_iff {output target : Option Text} :
    (Outcome.ofRun store (runTransform store settings file output target)).status = 0 ↔
      (∃ program, parseFile store file (some settings) = .ok program ∧
        (∀ s ∈ program.body, s.HasCanonicalForm) ∧
          target.getD settings.target = "cactbot".toList) ∧
        ∀ path ∈ output, store.CanWrite path := by
  rw [← transformFile_isOk_iff, runTransform]
  cases transformFile store file (targetOptions target) (some settings) with
  | error error => simp [Outcome.ofRun, failure]
  | ok text =>
    cases output with
    | none => simp [Outcome.ofRun]
    | some path =>
      have hsame : store.CanWrite path ↔ ∃ store', store.writeText path text = .ok store' :=
        ⟨fun h => h.exists_writeText text, fun ⟨store', h⟩ => ⟨text, store', h⟩⟩
      simp only [Option.mem_some_iff, forall_eq', hsame]
      cases store.writeText path text <;> simp [Outcome.ofRun, failure, Except.map]

/-- A transformation that fails prints and stores nothing. -/
theorem runTransform_failed {output target : Option Text}
    (h : (Outcome.ofRun store (runTransform store settings file output target)).status ≠ 0) :
    (Outcome.ofRun store (runTransform store settings file output target)).output = [] ∧
      (Outcome.ofRun store (runTransform store settings file output target)).store = store := by
  revert h
  rw [runTransform]
  cases transformFile store file (targetOptions target) (some settings) with
  | error error => exact fun _ => ⟨rfl, rfl⟩
  | ok text =>
    cases output with
    | none => simp [Outcome.ofRun]
    | some path =>
      cases hwrite : store.writeText path text <;>
        simp [hwrite, Outcome.ofRun, failure, Except.map]

/-- A file is parsed with success exactly if it holds a program. -/
theorem status_runParse_iff {json noLocation verbose : Bool} :
    (runParse store settings file json noLocation verbose).status = 0 ↔
      ∃ program, parseFile store file (some settings) = .ok program := by
  rw [runParse]
  cases parseFile store file (some settings) with
  | error error => simp [failure]
  | ok program => cases json <;> simp

/-- The tokens of a file that holds a program are listed with success. -/
theorem status_runTokens {program : Program}
    (h : parseFile store file (some settings) = .ok program) (whitespace : Bool) :
    (runTokens store settings file whitespace).status = 0 := by
  rw [parseFile] at h
  cases hread : store.readText file with
  | error fault => simp [hread] at h
  | ok source =>
    have hparse : parseSource settings.vocabulary source file = .ok program := by
      rw [hread] at h
      simp only [parseText, vocabularyOf] at h
      cases hsource : parseSource settings.vocabulary source file with
      | error e => simp [hsource, Except.mapError] at h
      | ok p => simpa [hsource, Except.mapError] using h
    have htokens : tokensOfFile store file settings.vocabulary ⟨true, whitespace⟩ =
        .ok (tokensOf settings.vocabulary source ⟨true, whitespace⟩) := by
      rw [tokensOfFile, hread]
      rfl
    simp only [runTokens, htokens]
    apply if_neg
    intro hunreadable
    rcases Option.map_eq_some_iff.mp hunreadable with ⟨t, ht, hkind⟩
    exact kind_ne_unknown_of_parseSource hparse _ t (List.mem_of_getLast? ht) hkind

end

/-- The settings of an invocation are those that are loaded from its setting files. -/
theorem Invocation.settings_eq_ok_iff {read : Text → Option Value} {invocation : Invocation}
    {store : Store} {usual : List Text} {environment : Settings.Environment} {s : Settings} :
    invocation.settings read store usual environment = .ok s ↔
      ∃ warnings, Settings.loadWith read store (invocation.candidates usual) true environment =
        .ok (s, warnings) := by
  rw [settings]
  cases Settings.loadWith read store (invocation.candidates usual) true environment with
  | error fault => simp [Except.map, Except.mapError]
  | ok loaded => simp [Except.map, Except.mapError, Prod.ext_iff]

/-- Before its command begins, an invocation stops in the same way whatever the command is, or the
level of log messages is set and the settings are loaded. -/
theorem Invocation.outcome_cases (read : Text → Option Value) (handled : Bool) (store : Store)
    (usual : List Text) (environment : Settings.Environment) (config level : Option Text) :
    (∃ message, ∀ command,
      Invocation.outcome read handled ⟨config, level, some command⟩ store usual environment =
        failure store [] message) ∨
      ∃ settings warnings,
        Settings.loadWith read store (candidates ⟨config, level, none⟩ usual) true environment =
            .ok (settings, warnings) ∧
          ∀ command,
            Invocation.outcome read handled ⟨config, level, some command⟩ store usual environment =
              .ofRun store (execute store settings command) := by
  -- The level and the settings do not depend on the command.
  have hlevel : ∀ command, levelName read ⟨config, level, command⟩ store usual environment =
      levelName read ⟨config, level, none⟩ store usual environment := fun _ => rfl
  have hsettings : ∀ command, Invocation.settings read ⟨config, level, command⟩ store usual
      environment = Invocation.settings read ⟨config, level, none⟩ store usual environment :=
    fun _ => rfl
  cases hname : levelName read ⟨config, level, none⟩ store usual environment with
  | error fault =>
    refine Or.inl ⟨fault.message, fun command => ?_⟩
    simp only [outcome, run, hlevel, hname, Except.bind, Outcome.ofRun]
  | ok name =>
    cases hset : setLevel handled name with
    | error fault =>
      refine Or.inl ⟨fault.message, fun command => ?_⟩
      simp only [outcome, run, hlevel, hname, Except.bind, hset, Outcome.ofRun]
    | ok =>
      cases hload : Invocation.settings read ⟨config, level, none⟩ store usual environment with
      | error fault =>
        refine Or.inl ⟨fault.message, fun command => ?_⟩
        simp only [outcome, run, hlevel, hname, Except.bind, hset, hsettings, hload, Outcome.ofRun]
      | ok settings =>
        rcases settings_eq_ok_iff.mp hload with ⟨warnings, hloaded⟩
        refine Or.inr ⟨settings, warnings, hloaded, fun command => ?_⟩
        simp only [outcome, run, hlevel, hname, Except.bind, hset, hsettings, hload]

/-- A name that means something else than a level stops every command, in any case of letters. -/
example :
    Invocation.outcome (fun _ => none) false
        ⟨none, some "basic_format".toList, some (.tokens "t.txt".toList false)⟩ [] [] [] =
      ⟨1, [], "Unknown level: '%(levelname)s:%(name)s:%(message)s'\n".toList, []⟩ := by
  decide +kernel

/-- What the outcomes of the three commands on a file have in common, under settings that were
loaded or not. -/
structure CommandsAgree (store : Store) (loaded : Except Utf8Fault (Settings × List Warning))
    (file : Text) (output target : Option Text) (transform parse tokens : Outcome) : Prop where
  parses : transform.status = 0 → parse.status = 0
  lists : parse.status = 0 → tokens.status = 0
  transforms : parse.status = 0 → (∀ path ∈ output, store.CanWrite path) →
    ∃ settings warnings program, loaded = .ok (settings, warnings) ∧
      parseFile store file (some settings) = .ok program ∧
        (transform.status = 0 ↔ (∀ s ∈ program.body, s.HasCanonicalForm) ∧
          target.getD settings.target = "cactbot".toList)
  untouched : transform.status ≠ 0 → transform.output = [] ∧ transform.store = store

/-- The commands agree on every file, under any settings that they share and whatever reads the
setting files: what can be transformed can be parsed, and what can be parsed has tokens that can be
listed.  A file that can be parsed is transformed exactly if all of its statements have a canonical
form of the kind that is asked for, and a transformation that fails leaves no trace. -/
theorem commandsAgree (read : Text → Option Value) (handled : Bool) (store : Store)
    (usual : List Text) (environment : Settings.Environment) (config level : Option Text)
    (file : Text) (output target : Option Text) (json noLocation verbose whitespace : Bool) :
    let outcome := fun command =>
      Invocation.outcome read handled ⟨config, level, some command⟩ store usual environment
    CommandsAgree store
      (Settings.loadWith read store (Invocation.candidates ⟨config, level, none⟩ usual) true
        environment)
      file output target (outcome (.transform file output target))
      (outcome (.parse file json noLocation verbose)) (outcome (.tokens file whitespace)) := by
  intro outcome
  rcases Invocation.outcome_cases read handled store usual environment config level with
    ⟨message, hstops⟩ | ⟨settings, warnings, hloaded, hruns⟩
  · -- All three fail alike.
    have hfails : ∀ command, outcome command = failure store [] message := hstops
    simp only [hfails]
    constructor <;> simp [failure]
  · have houtcome : ∀ command, outcome command = .ofRun store (execute store settings command) :=
      hruns
    simp only [houtcome, hloaded]
    constructor
    case parses =>
      intro h
      exact status_runParse_iff.mpr ((status_runTransform_iff.mp h).1.imp fun _ h => h.1)
    case lists =>
      intro h
      rcases status_runParse_iff.mp h with ⟨program, hprogram⟩
      exact status_runTokens hprogram whitespace
    case transforms =>
      intro h hwrite
      rcases status_runParse_iff.mp h with ⟨program, hprogram⟩
      refine ⟨settings, warnings, program, rfl, hprogram, status_runTransform_iff.trans ?_⟩
      simp only [hprogram, Except.ok.injEq, exists_eq_left', and_iff_left hwrite]
    case untouched => exact runTransform_failed

/-- A file that can be parsed is not transformed to a kind of canonical form that does not exist. -/
theorem commandsAgree_unknownTarget :
    let store : Store := [("t.txt".toList, .file (Text.encode "# a\n".toList))]
    let outcome := fun command =>
      Invocation.outcome Yaml.read? false ⟨none, none, some command⟩ store [] []
    let transform := outcome (.transform "t.txt".toList none (some "other".toList))
    (outcome (.parse "t.txt".toList false false true)).status = 0 ∧
      (outcome (.tokens "t.txt".toList true)).status = 0 ∧
        transform.status ≠ 0 ∧ transform.output = [] := by
  intro store outcome transform
  have hagree : CommandsAgree store (Settings.loadWith Yaml.read? store [] true [])
      "t.txt".toList none (some "other".toList) transform
      (outcome (.parse "t.txt".toList false false true)) (outcome (.tokens "t.txt".toList true)) :=
    commandsAgree Yaml.read? false store [] [] none none "t.txt".toList none (some "other".toList)
      false false true true
  have hparse : (outcome (.parse "t.txt".toList false false true)).status = 0 := by
    decide +kernel
  have hfails : transform.status ≠ 0 := by
    rcases hagree.transforms hparse (by simp) with ⟨settings, warnings, program, -, -, hiff⟩
    intro hstatus
    have htarget : "other".toList = "cactbot".toList := (hiff.mp hstatus).2
    exact absurd htarget (by decide)
  exact ⟨hparse, hagree.lists hparse, hfails, (hagree.untouched hfails).1⟩

end RaidTimeline
