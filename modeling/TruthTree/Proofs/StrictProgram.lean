import TruthTree.Program
import TruthTree.Proofs.Safety
import TruthTree.Proofs.SessionStep
import TruthTree.Proofs.StrictFlag

/-! The exit code for premises. Under strict reading it tells of a premise, in the file or on the command
line, that is not grammatical, and of nothing else: premises that are entered are asked for until they
are grammatical, and no operation of a session meets a text that cannot be read. -/
namespace TruthTree

namespace Premise

def Grammatical (t : Text) : Prop := ∃ canonical, Sentence.normalize t = .ok canonical

theorem not_grammatical_iff {t : Text} : ¬Grammatical t ↔ ∃ e, Sentence.normalize t = .error e := by
  rw [Grammatical]
  cases Sentence.normalize t with
  | ok canonical => simp
  | error e => simp

theorem normalize_of_normalize {t canonical : Text} (h : Sentence.normalize t = .ok canonical) :
    Sentence.normalize canonical = .ok canonical := by
  obtain ⟨s, read, rfl⟩ := Sentence.normalize_eq_ok_iff.mp h
  exact Sentence.normalize_written (Sentence.lexical_read read)

theorem grammatical_of_normalize {t canonical : Text} (h : Sentence.normalize t = .ok canonical) :
    Grammatical canonical :=
  ⟨canonical, normalize_of_normalize h⟩

theorem exists_readStrict_iff {t : Text} : (∃ f, readStrict t = .ok f) ↔ Grammatical t := by
  constructor
  · rintro ⟨f, read⟩
    rw [readStrict] at read
    cases normal : Sentence.normalize t with
    | ok canonical => exact ⟨canonical, normal⟩
    | error e => simp [normal] at read
  · rintro ⟨canonical, normal⟩
    obtain ⟨s, read, rfl⟩ := Sentence.normalize_eq_ok_iff.mp normal
    refine ⟨Formula.ofSentence s, ?_⟩
    simp only [readStrict, normal, readPlain, Formula.read_written (Sentence.lexical_read read).plain,
      Except.mapError]

theorem exists_readAll_iff {sources : List Text} :
    (∃ premises, readAll true sources = .ok premises) ↔ ∀ t ∈ sources, Grammatical t := by
  induction sources with
  | nil => simp [readAll]
  | cons t sources ih =>
      rw [List.forall_mem_cons, ← ih, ← exists_readStrict_iff]
      have first : read true t = readStrict t := rfl
      rw [readAll, first]
      cases readStrict t with
      | error e => simp
      | ok f =>
          cases readAll true sources with
          | error e => simp [Except.map]
          | ok premises => simp [Except.map]

end Premise

namespace Tableau

theorem ofTexts_of_ungrammatical {sources : List Text} (h : ¬∀ t ∈ sources, Premise.Grammatical t) :
    ∃ e, ofTexts true sources = .error (.unreadable e) := by
  rw [← Premise.exists_readAll_iff] at h
  rw [ofTexts]
  cases read : Premise.readAll true sources with
  | error e => exact ⟨e, rfl⟩
  | ok premises => exact absurd ⟨premises, read⟩ h

theorem ofTexts_of_grammatical {sources : List Text} (h : ∀ t ∈ sources, Premise.Grammatical t) :
    (∃ t, ofTexts true sources = .ok t ∧ t.StrictlyBuilt) ∨ ofTexts true sources = .error .noPremise := by
  obtain ⟨premises, read⟩ := Premise.exists_readAll_iff.mpr h
  cases premises with
  | nil =>
      right
      rw [ofTexts, read]
      rfl
  | cons first rest =>
      have built : ofTexts true sources = .ok (ofPremises first rest) := by
        rw [ofTexts, read]
        rfl
      exact .inl ⟨_, built, strictlyBuilt_ofTexts built⟩

theorem StrictlyBuilt.perform_ne_unreadable {t : Tableau} (h : t.StrictlyBuilt) (operation : Operation)
    (e : UnknownConnective) : (t.perform operation).2 ≠ .unreadable e := by
  have settled : (t.perform operation).2 = .accepted ∨
      ∃ reason, (t.perform operation).2 = .refused reason := by
    cases operation with
    | expand number => exact h.expand_settled number
    | close first second => exact t.close_settled first second
  rcases settled with accepted | ⟨reason, refused⟩
  · rw [accepted]
    exact nofun
  · rw [refused]
    exact nofun

end Tableau

def SessionEnd.Readable (ended : SessionEnd) : Prop := ∀ e, ended.fault ≠ some (.unreadable e)

namespace Session

def Strict (s : Session) : Prop := s.tableau.StrictlyBuilt

theorem Step.strict {s : Session} {reply : Reply} (h : Step s reply) (built : s.Strict) :
    reply.next.Satisfies Strict SessionEnd.Readable := by
  cases h with
  | asks remarks same =>
      rw [Strict, ← same] at built
      exact built
  | leaves remarks => exact nofun
  | breaks remarks => exact nofun
  | @performs events operation remarks =>
      obtain ⟨notices, report, -, -, performed⟩ | ⟨notices, e, -, unreadable, -⟩ :=
        s.perform_cases operation
      · rw [performed]
        have later : (s.tableau.after (.perform operation)).StrictlyBuilt := built.after nofun
        exact later
      · exact absurd unreadable (built.perform_ne_unreadable operation e)

end Session

theorem ProgramFailure.exitCode_ne {failure : ProgramFailure} (h : ∀ e, failure ≠ .premise e) :
    failure.exitCode ≠ 2 := by
  cases failure with
  | premise e => exact absurd rfl (h e)
  | file e => cases e <;> exact nofun
  | _ => exact nofun

namespace PremiseEntry

def AllGrammatical (entered : Entered) : Prop :=
  ∀ premises ∈ entered, ∀ t ∈ premises, Premise.Grammatical t

structure Sound (e : PremiseEntry) : Prop where
  strict : e.strict = true
  accepted : ∀ t ∈ e.accepted, Premise.Grammatical t

theorem Sound.receivePremise {e : PremiseEntry} (h : e.Sound) (line : Text) :
    ∃ events later, e.receivePremise line = ⟨events, .ask later⟩ ∧ later.Sound := by
  rw [PremiseEntry.receivePremise, if_pos h.strict]
  cases normal : Sentence.normalize line with
  | error error => exact ⟨_, e, rfl, h⟩
  | ok canonical =>
      refine ⟨_, e.accept canonical, rfl, h.strict, ?_⟩
      refine List.forall_mem_append.mpr ⟨h.accepted, List.forall_mem_singleton.mpr ?_⟩
      exact Premise.grammatical_of_normalize normal

theorem Sound.receive {e : PremiseEntry} (h : e.Sound) (line : Text) :
    (e.receive line).next.Satisfies Sound AllGrammatical := by
  rw [PremiseEntry.receive]
  split
  · obtain ⟨events, later, received, sound⟩ := h.receivePremise line
    rw [received]
    exact sound
  · rw [receiveAnother]
    split
    · exact ⟨h.strict, h.accepted⟩
    · split
      · rintro premises ⟨⟩
        exact h.accepted
      · exact ⟨h.strict, h.accepted⟩

theorem Sound.finish {e : PremiseEntry} (h : e.Sound) : AllGrammatical e.finish.2 := by
  rw [PremiseEntry.finish]
  split
  · exact nofun
  · rintro premises ⟨⟩
    exact h.accepted

end PremiseEntry

/-- A stage of a strict run over grammatical premises. -/
def Stage.Sound : Stage → Prop
  | .entry setup e => setup.options.strict = true ∧ e.Sound
  | .session s => s.Strict

namespace Program

/-- The session goes on over strict formulas, or the program ends with another exit code than that for
premises. -/
def Safe : Next Session ExitCode → Prop := Next.Satisfies Session.Strict (· ≠ 2)

theorem Safe.mapState {turn : Turn Session ExitCode} (h : Safe turn.next) :
    (turn.mapState Stage.session).next.Satisfies Stage.Sound (· ≠ 2) := by
  obtain ⟨events, next⟩ := turn
  cases next with
  | ask s => exact h
  | stop code => exact h

theorem sessionExit_ne {ended : SessionEnd} (h : ended.Readable) : (sessionExit ended).2 ≠ 2 := by
  obtain ⟨s, fault⟩ := ended
  cases fault with
  | none => exact Nat.zero_ne_add_one 1
  | some fault =>
      cases fault with
      | unreadable e => exact absurd rfl (h e)
      | noFormat e =>
          have other : (ProgramFailure.format e).exitCode ≠ 2 := ProgramFailure.exitCode_ne nofun
          exact other

theorem safe_ofSession {reply : Session.Reply}
    (h : reply.next.Satisfies Session.Strict SessionEnd.Readable) : Safe (ofSession reply).next := by
  obtain ⟨events, next⟩ := reply
  cases next with
  | ask s => exact h
  | stop ended => exact sessionExit_ne h

theorem safe_build {setup : Setup} (strict : setup.options.strict = true) {premises : List Text}
    (h : ∀ t ∈ premises, Premise.Grammatical t) : Safe (build setup premises).next := by
  rw [build, strict]
  obtain ⟨t, built, sound⟩ | empty := Tableau.ofTexts_of_grammatical h
  · rw [built]
    exact sound
  · rw [empty]
    have other : ProgramFailure.emptyTree.exitCode ≠ 2 := ProgramFailure.exitCode_ne nofun
    exact other

theorem safe_afterEntry {setup : Setup} (strict : setup.options.strict = true)
    {entered : PremiseEntry.Entered} (h : PremiseEntry.AllGrammatical entered) :
    Safe (afterEntry setup entered).next := by
  cases entered with
  | none =>
      have other : ProgramFailure.noInput.exitCode ≠ 2 := ProgramFailure.exitCode_ne nofun
      exact other
  | some premises => exact safe_build strict (h premises rfl)

theorem finishSession_ne (s : Session) : (finishSession s).2 ≠ 2 := by
  have calm : s.finish.2.fault = none := by
    rw [Session.finish]
    split <;> rfl
  have readable : s.finish.2.Readable := by
    intro e
    rw [calm]
    exact (Option.some_ne_none _).symm
  exact sessionExit_ne readable

theorem sound_ofEntry {setup : Setup} (strict : setup.options.strict = true)
    {turn : Turn PremiseEntry PremiseEntry.Entered}
    (h : turn.next.Satisfies PremiseEntry.Sound PremiseEntry.AllGrammatical) :
    (ofEntry setup turn).next.Satisfies Stage.Sound (· ≠ 2) := by
  obtain ⟨events, next⟩ := turn
  cases next with
  | ask entry => exact ⟨strict, h⟩
  | stop entered => exact (safe_afterEntry strict h).mapState

theorem sound_receive {stage : Stage} (h : stage.Sound) (line : Text) :
    (receive stage line).next.Satisfies Stage.Sound (· ≠ 2) := by
  cases stage with
  | entry setup entry => exact sound_ofEntry h.1 (h.2.receive line)
  | session s => exact (safe_ofSession ((Session.step_receive s line).strict h)).mapState

theorem finish_ne {stage : Stage} (h : stage.Sound) : (finish stage).2 ≠ 2 := by
  cases stage with
  | session s => exact finishSession_ne s
  | entry setup entry =>
      have safe := safe_afterEntry h.1 h.2.finish
      simp only [finish]
      split
      · next code stopped =>
          change (afterEntry setup entry.finish.2).next = .stop code at stopped
          rw [stopped] at safe
          exact safe
      · exact finishSession_ne _

def filePremises (options : Options) (found : Path → Found) : Except ProgramFailure (List Text) :=
  match options.premisesFile with
  | none => .ok []
  | some .nothing => .error .noFileName
  | some (.text file) =>
    (PremiseFile.read (shownFile file) (found (Path.ofText file))).mapError .file

theorem start_of_file {setup : Setup} {found : Path → Found} {fromFile : List Text}
    (h : filePremises setup.options found = .ok fromFile) :
    ∃ events, start setup found = (gather setup fromFile).after events := by
  rw [filePremises] at h
  rw [start]
  cases named : setup.options.premisesFile with
  | none =>
      simp only [named, Except.ok.injEq] at h
      subst h
      exact ⟨_, rfl⟩
  | some value =>
      cases value with
      | nothing => simp [named] at h
      | text file =>
          simp only [named] at h
          cases read : PremiseFile.read (shownFile file) (found (Path.ofText file)) with
          | error e => simp [read, Except.mapError] at h
          | ok premises =>
              simp only [read, Except.mapError, Except.ok.injEq] at h ⊢
              subst h
              exact ⟨_, rfl⟩

theorem sound_gather {setup : Setup} (strict : setup.options.strict = true) {fromFile : List Text}
    (h : ∀ t ∈ fromFile ++ setup.options.premises, Premise.Grammatical t) :
    (gather setup fromFile).next.Satisfies Stage.Sound (· ≠ 2) := by
  rw [gather]
  split
  · exact sound_ofEntry strict ⟨strict, nofun⟩
  · exact (safe_build strict h).mapState

theorem gather_of_ungrammatical {setup : Setup} (strict : setup.options.strict = true)
    {fromFile : List Text} (h : ¬∀ t ∈ fromFile ++ setup.options.premises, Premise.Grammatical t) :
    (gather setup fromFile).next = .stop 2 := by
  have given : (fromFile ++ setup.options.premises).isEmpty = false := by
    by_contra none
    rw [Bool.not_eq_false, List.isEmpty_iff] at none
    rw [none] at h
    exact h nofun
  obtain ⟨e, rejected⟩ := Tableau.ofTexts_of_ungrammatical h
  simp only [gather, given, build, strict, rejected]
  rfl

theorem exitCode_run {edition : Edition} {words : List Text} {options : Options}
    (accepted : Options.ofWords edition words = .ok options) (found : Path → Found)
    (graphics : Option Graphics) (input : List Text) (ending : Ending) :
    ∃ setup : Setup, setup.options = options ∧
      (run edition words found graphics input ending).exitCode =
        ((dialogue.runFrom ending (start setup found) input).result).getD
          ProgramFailure.interrupted.exitCode := by
  refine ⟨⟨options, ⟨graphics, folderAt (found (.ofText Gallery.folderName.toList))⟩⟩, rfl, ?_⟩
  rw [run, accepted]
  dsimp only
  split
  · next result => rw [result, Option.getD_some]
  · next result => rw [result, Option.getD_none]

theorem result_ne {turn : Reply} (h : turn.next.Satisfies Stage.Sound (· ≠ 2)) (ending : Ending)
    (input : List Text) : ∀ code ∈ (dialogue.runFrom ending turn input).result, code ≠ 2 := by
  obtain ⟨events, next⟩ := turn
  cases next with
  | ask stage =>
      have step : ∀ (stage : Stage) line, stage.Sound →
          (dialogue.receive stage line).next.Satisfies Stage.Sound (· ≠ 2) :=
        fun _ line sound => sound_receive sound line
      have last : ∀ stage : Stage, stage.Sound → (dialogue.finish stage).2 ≠ 2 :=
        fun _ sound => finish_ne sound
      exact Dialogue.good_result ending step last h input
  | stop code =>
      rintro result ⟨⟩
      exact h

/-- Under strict reading the exit code 2 tells of a premise that is not grammatical, in the file or on
the command line, and of nothing else. Neither the premises that are entered nor the commands of the
session lead to it. This is so in both editions of the rules for options, wherever paths lead, and
whatever pictures are drawn with. -/
theorem strict_exit_code_two {edition : Edition} {words : List Text} {options : Options}
    {found : Path → Found} {fromFile : List Text} (accepted : Options.ofWords edition words = .ok options)
    (strict : options.strict = true ∨ "--strict".toList ∈ words.takeWhile (· ≠ ['-', '-']))
    (file : filePremises options found = .ok fromFile) (graphics : Option Graphics) (input : List Text)
    (ending : Ending) :
    (run edition words found graphics input ending).exitCode = 2 ↔
      ∃ t ∈ fromFile ++ options.premises, ∃ e, Sentence.normalize t = .error e := by
  have flag : options.strict = true := strict.elim id (Options.strict_of_words accepted)
  obtain ⟨setup, rfl, code⟩ := exitCode_run accepted found graphics input ending
  obtain ⟨events, started⟩ := start_of_file file
  have same : ((dialogue.runFrom ending (start setup found) input).result) =
      (dialogue.runFrom ending (gather setup fromFile) input).result := by
    rw [started, Dialogue.runFrom_after]
    rfl
  rw [code, same]
  by_cases grammatical : ∀ t ∈ fromFile ++ setup.options.premises, Premise.Grammatical t
  · have none : ¬∃ t ∈ fromFile ++ setup.options.premises, ∃ e, Sentence.normalize t = .error e := by
      rintro ⟨t, ht, rejected⟩
      exact Premise.not_grammatical_iff.mpr rejected (grammatical t ht)
    refine iff_of_false ?_ none
    have other := result_ne (sound_gather flag grammatical) ending input
    cases result : (dialogue.runFrom ending (gather setup fromFile) input).result with
    | none =>
        have other : ProgramFailure.interrupted.exitCode ≠ 2 := ProgramFailure.exitCode_ne nofun
        exact other
    | some code => exact other code result
  · have stopped := gather_of_ungrammatical flag grammatical
    refine iff_of_true ?_ ?_
    · rw [Dialogue.runFrom, stopped]
      rfl
    · push Not at grammatical
      obtain ⟨t, ht, rejected⟩ := grammatical
      exact ⟨t, ht, Premise.not_grammatical_iff.mp rejected⟩

-- A file far from the working directory with a premise that breaks off, named after the equals sign
-- of a cluster; and runs without premises, whatever is entered.
theorem strict_exit_code_two_file :
    let words := ["--strict", "-vf=/tmp/premises", "P"].map String.toList
    let options : Options :=
      ⟨some (.text "/tmp/premises".toList), ["P".toList], true, true, false, .text "png".toList⟩
    let found := fun path => if path = Path.ofText "/tmp/premises".toList then
      Found.file ("(or P Q)\n(and P\n".toList.map fun c => c.toNat.toUInt8) else .missing
    let fromFile := ["(or P Q)".toList, "(and P".toList]
    (Options.ofWords .later words = .ok options ∧ filePremises options found = .ok fromFile ∧
      (∃ t ∈ fromFile ++ options.premises, ∃ e, Sentence.normalize t = .error e) ∧
      (run .later words found none [] .endOfInput).exitCode = 2) ∧
    ∀ edition graphics input ending,
      (run edition ["--strict".toList] found graphics input ending).exitCode ≠ 2 := by
  intro words options found fromFile
  have accepted : Options.ofWords .later words = .ok options := by
    unfold words options
    decide +kernel
  have file : filePremises options found = .ok fromFile := by
    unfold options found fromFile
    decide +kernel
  have rejected : ∃ t ∈ fromFile ++ options.premises, ∃ e, Sentence.normalize t = .error e := by
    refine ⟨"(and P".toList, by simp [fromFile], ?_⟩
    exact ⟨.unexpectedEnd, by decide +kernel⟩
  refine ⟨⟨accepted, file, rejected, ?_⟩, ?_⟩
  · exact (strict_exit_code_two accepted (.inl rfl) file none [] .endOfInput).mpr rejected
  · intro edition graphics input ending two
    have bare : Options.ofWords edition ["--strict".toList] =
        .ok { Options.initial with strict := true } := by
      cases edition <;> decide +kernel
    have given : "--strict".toList ∈ ["--strict".toList].takeWhile (· ≠ ['-', '-']) := by decide
    have noFile : filePremises { Options.initial with strict := true } found = .ok [] := rfl
    obtain ⟨t, ht, -⟩ := (strict_exit_code_two bare (.inr given) noFile graphics input ending).mp two
    cases ht

end Program

end TruthTree
