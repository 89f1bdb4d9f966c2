import TruthTree.Options.Basic
import Mathlib.Data.List.TakeWhile

/-! The flag for strict reading. It counts wherever it stands before the separator, for no other flag
takes it as a value and no flag unsets it. -/
namespace TruthTree

namespace Argument

def strict : Argument := flag .strict "--strict".toList none

theorem ofWord_strict : ofWord "--strict".toList = .ok strict := by decide +kernel

theorem strict_mem_of_words {words : List Text} {arguments : List Argument}
    (h : ofWords words = .ok arguments) (given : "--strict".toList ∈ words.takeWhile (· ≠ ['-', '-'])) :
    strict ∈ arguments := by
  induction words generalizing arguments with
  | nil => cases given
  | cons word words ih =>
      by_cases separator : word = ['-', '-']
      · simp [separator] at given
      · rw [List.takeWhile_cons_of_pos (by simpa using separator), List.mem_cons] at given
        rw [ofWords, if_neg separator] at h
        cases first : ofWord word with
        | error e => simp [first] at h
        | ok a =>
            cases rest : ofWords words with
            | error e => simp [first, rest, Except.map] at h
            | ok later =>
                simp only [first, rest, Except.map, Except.ok.injEq] at h
                subst h
                rcases given with rfl | given
                · rw [ofWord_strict] at first
                  exact List.mem_cons.mpr (.inl (Except.ok.inj first))
                · exact List.mem_cons_of_mem a (ih rest given)

end Argument

namespace Options

variable {edition : Edition}

theorem strict_apply {o next : Options} {setting : Setting} (h : o.apply edition setting = .ok next)
    (strict : o.strict = true ∨ setting.flag = .strict) : next.strict = true := by
  obtain ⟨flag, value⟩ := setting
  cases flag with
  | help => cases h
  | strict =>
      obtain rfl := Except.ok.inj h
      rfl
  | _ =>
      obtain rfl := Except.ok.inj h
      exact strict.resolve_right (by simp)

theorem strict_applyAll {o last : Options} {settings : List Setting}
    (h : o.applyAll edition settings = .ok last)
    (strict : o.strict = true ∨ ∃ setting ∈ settings, setting.flag = .strict) : last.strict = true := by
  induction settings generalizing o with
  | nil =>
      obtain rfl := Except.ok.inj h
      simpa using strict
  | cons setting settings ih =>
      rw [applyAll] at h
      cases applied : o.apply edition setting with
      | error e => simp [applied] at h
      | ok next =>
          simp only [applied] at h
          apply ih h
          rcases strict with strict | ⟨other, hother, flag⟩
          · exact .inl (strict_apply applied (.inl strict))
          · rcases List.mem_cons.mp hother with rfl | later
            · exact .inl (strict_apply applied (.inr flag))
            · exact .inr ⟨other, later, flag⟩

theorem strict_set {p next : Progress} {words : List Text} {settings : List Setting}
    (h : (p.leave words).set edition settings = .ok next)
    (strict : p.options.strict = true ∨ ∃ setting ∈ settings, setting.flag = .strict) :
    next.options.strict = true := by
  rw [Progress.set] at h
  cases applied : (p.leave words).options.applyAll edition settings with
  | error e => simp [applied, Except.map] at h
  | ok o =>
      simp only [applied, Except.map, Except.ok.injEq] at h
      subst h
      exact strict_applyAll applied strict

theorem strict_group (p : Progress) (operands : List Argument) :
    (p.group operands).options.strict = p.options.strict := by
  rw [Progress.group]
  split <;> rfl

theorem strict_head {p : Progress} {flag : Flag} {spelling : Text} {value : Option Attached}
    {c : Cluster} {rest : List Argument} (h : cluster edition flag spelling value = .ok c)
    (given : p.options.strict = true ∨ Argument.strict ∈ Argument.flag flag spelling value :: rest) :
    (p.options.strict = true ∨ ∃ setting ∈ c.settings, setting.flag = .strict) ∨
      Argument.strict ∈ rest := by
  rcases given with strict | given
  · exact .inl (.inl strict)
  · rcases List.mem_cons.mp given with first | later
    · obtain ⟨rfl, rfl, rfl⟩ := Argument.flag.inj first
      obtain rfl := Except.ok.inj h
      exact .inl (.inr ⟨_, List.mem_singleton_self _, rfl⟩)
    · exact .inr later

theorem strict_process {p last : Progress} {arguments : List Argument}
    (h : process edition p arguments = .ok last)
    (given : p.options.strict = true ∨ Argument.strict ∈ arguments) : last.options.strict = true := by
  -- The induction follows the arguments. Where a flag takes a value or operands form a group, the
  -- strict flag is not among the words that are passed over.
  fun_induction process edition p arguments with
  | case1 p =>
      obtain rfl := Except.ok.inj h
      exact given.resolve_right List.not_mem_nil
  | case2 => cases h
  | case3 => cases h
  | case4 p flag spelling value c clustered rest complete next set ih =>
      apply ih h
      exact (strict_head clustered given).imp_left (strict_set set)
  | case5 => cases h
  | case6 p flag spelling value c clustered wanting word rest wants next set ih =>
      apply ih h
      rcases strict_head clustered given with strict | given
      · refine .inl (strict_set set (strict.imp_right ?_))
        rintro ⟨setting, hsetting, flag⟩
        exact ⟨setting, List.mem_append_left _ hsetting, flag⟩
      · have other : Argument.strict ≠ .operand word := nofun
        exact .inr (List.mem_of_ne_of_mem other given)
  | case7 => cases h
  | case8 p word rest ih =>
      have other : Argument.strict ≠ .unknown word := nofun
      exact ih h (given.imp_right (List.mem_of_ne_of_mem other))
  | case9 p a rest flag unknown ih =>
      apply ih h
      rw [strict_group]
      refine given.imp_right ?_
      intro given
      have other : Argument.strict ≠ a := fun first => flag _ _ _ first.symm
      have later := List.mem_of_ne_of_mem other given
      rw [← List.takeWhile_append_dropWhile (p := isOperand) (l := rest)] at later
      refine (List.mem_append.mp later).resolve_left ?_
      intro operand
      cases List.mem_takeWhile_imp operand

theorem strict_of_words {words : List Text} {options : Options}
    (accepted : ofWords edition words = .ok options)
    (given : "--strict".toList ∈ words.takeWhile (· ≠ ['-', '-'])) : options.strict = true := by
  rw [ofWords] at accepted
  cases read : Argument.ofWords words with
  | error e => simp [read] at accepted
  | ok arguments =>
      simp only [read] at accepted
      cases processed : process edition ⟨initial, false, []⟩ arguments with
      | error e => simp [processed] at accepted
      | ok p =>
          simp only [processed] at accepted
          split at accepted
          · obtain rfl := Except.ok.inj accepted
            exact strict_process processed (.inr (Argument.strict_mem_of_words read given))
          · cases accepted

end Options

end TruthTree
