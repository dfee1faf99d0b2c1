import DocStore.CommandLine.Environment
import DocStore.Proofs.Disk.Texts
import Mathlib.Data.List.TakeWhile
/-!
# Roots below the home directory

A tilde before a solidus stands for the home directory, and what follows names a path below it, up to
the first line end (`expandTilde_solidus`, `resolveRoot_solidus`).  A root that holds no line end is
therefore the path that it says (`resolveRoot_of_oneLine`), and two such roots are told apart by their
texts exactly when their paths differ (`resolveRoot_text_eq_iff`).  What follows a line end is lost:
roots that differ only there are one root, although their paths differ (`line_end_cuts_root`).  A text
that does not start with a tilde in that way stays as it is (`expandTilde_of_noHome`).
-/

set_option autoImplicit false

namespace DocStore.CommandLine

open Disk (Path)

/-! ## Lines -/

/-- A text holds no line end. -/
def OneLine (text : String) : Prop := ∀ character ∈ text.toList, isLineEnd character = false

theorem oneLine_untilLineEnd (text : String) : OneLine (untilLineEnd text) := by
  intro character member
  rw [untilLineEnd, String.toList_ofList] at member
  simpa using List.mem_takeWhile_imp member

/-- A text of one line is not cut. -/
theorem untilLineEnd_of_oneLine {text : String} (oneLine : OneLine text) :
    untilLineEnd text = text := by
  have all : text.toList.takeWhile (fun character => !isLineEnd character) = text.toList :=
    List.takeWhile_eq_self_iff.mpr fun character member => by simp [oneLine character member]
  rw [untilLineEnd, all, String.ofList_toList]

/-! ## The tilde -/

/-- **A tilde before a solidus** stands for the home directory; what follows a line end is dropped. -/
theorem expandTilde_solidus (home rest : String) :
    expandTilde home ("~/" ++ rest) = Path.join home (untilLineEnd rest) := by
  have characters : ("~/" ++ rest).toList = '~' :: '/' :: rest.toList := by simp
  simp only [expandTilde, characters, String.ofList_toList]

/-- **Any other text** stays as it is, unless it is the tilde alone. -/
theorem expandTilde_of_noHome (home : String) {text : String} (noTilde : text ≠ "~")
    (noSolidus : ∀ rest, text ≠ "~/" ++ rest) (noBackslash : ∀ rest, text ≠ "~\\" ++ rest) :
    expandTilde home text = text := by
  have cut (first : String) {rest : List Char} (starts : text.toList = first.toList ++ rest) :
      text = first ++ String.ofList rest := by
    rw [← String.toList_inj, String.toList_append, String.toList_ofList, starts]
  unfold expandTilde
  split
  next alone => exact absurd (String.toList_inj.mp alone) noTilde
  next rest starts => exact absurd (cut "~/" starts) (noSolidus _)
  next rest starts => exact absurd (cut "~\\" starts) (noBackslash _)
  next => rfl

/-- Where a tilde stands for the home directory, only the first line counts. -/
theorem expandTilde_untilLineEnd (home rest : String) :
    expandTilde home ("~/" ++ untilLineEnd rest) = expandTilde home ("~/" ++ rest) := by
  rw [expandTilde_solidus, expandTilde_solidus,
    untilLineEnd_of_oneLine (oneLine_untilLineEnd rest)]

/-! ## Roots -/

theorem resolveRoot_some (environment : Environment) (text : String) :
    resolveRoot environment (some text)
      = Path.resolve environment.workingDirectory (expandTilde environment.home text) := rfl

section

variable {environment : Environment} (housed : environment.home ≠ "")
include housed

/-- **A root below the home directory** is the path that its first line names there. -/
theorem resolveRoot_solidus (rest : String) :
    resolveRoot environment (some ("~/" ++ rest))
      = Path.follow (Path.resolve environment.workingDirectory environment.home)
          (untilLineEnd rest) := by
  rw [resolveRoot_some, expandTilde_solidus, Path.resolve_join housed]

theorem resolveRoot_of_oneLine {rest : String} (oneLine : OneLine rest) :
    resolveRoot environment (some ("~/" ++ rest))
      = Path.follow (Path.resolve environment.workingDirectory environment.home) rest := by
  rw [resolveRoot_solidus housed, untilLineEnd_of_oneLine oneLine]

/-- **Roots below the home directory are told apart** by their texts just as far as the paths that
their first lines name. -/
theorem resolveRoot_text_eq_iff (undivided : Path.Undivided environment.workingDirectory)
    (rest rest' : String) :
    (resolveRoot environment (some ("~/" ++ rest))).text
        = (resolveRoot environment (some ("~/" ++ rest'))).text
      ↔ Path.follow (Path.resolve environment.workingDirectory environment.home) (untilLineEnd rest)
        = Path.follow (Path.resolve environment.workingDirectory environment.home)
            (untilLineEnd rest') := by
  rw [← resolveRoot_solidus housed, ← resolveRoot_solidus housed]
  exact ⟨Path.eq_of_text_eq (undivided.resolve _) (undivided.resolve _), congrArg Path.text⟩

end

/-- What follows a line end does not count, although it would name another path. -/
theorem line_end_cuts_root :
    (∀ environment : Environment, resolveRoot environment (some ("~/" ++ "a\nb"))
        = resolveRoot environment (some ("~/" ++ "a")))
      ∧ expandTilde "/home/ann" ("~/" ++ "a\nb") ≠ Path.join "/home/ann" "a\nb"
      ∧ Path.follow ["home", "ann"] "a\nb" ≠ Path.follow ["home", "ann"] "a" := by
  have cut : untilLineEnd "a\nb" = "a" := by decide
  refine ⟨fun environment => ?_, by decide +kernel, by decide +kernel⟩
  rw [resolveRoot_some, resolveRoot_some, ← expandTilde_untilLineEnd, cut]

end DocStore.CommandLine
