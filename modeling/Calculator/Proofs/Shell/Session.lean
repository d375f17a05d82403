/-
Sessions with the shell.

A shell performs one step after the other.  All that it remembers from one step to the next is
whether outlines are shown, and only the command that switches them on and off changes that.  The
lines of a session are steps up to the first blank line; what stands behind that line is never
looked at.

* `Shell.performAll`, `Shell.responses` — the shell after several steps, and what it responds;
* `Shell.perform_snd` — **what one step changes**;
* `Shell.performAll_eq` — what several steps change;
* `Shell.only_toggle_remembered` — the responses to several steps;
* `Shell.turn_of_isBlankLine`, `Shell.turn_of_not_isBlankLine` — **what a line does to a session**;
* `Shell.run_eq`, `Shell.run_append_of_blank` — sessions, and what they do not depend on;
* `Shell.run_follows_steps` — a session is its steps, one after the other.
-/

import Calculator.CommandLine
import Calculator.Proofs.Shell.Output

set_option relaxedAutoImplicit false
set_option autoImplicit false

namespace Calculator.Shell

variable {device : Device} {prompt : String} {shell : Shell}

/-! ### One step after the other -/

/-- Performs the steps, from the first to the last. -/
def performAll (device : Device) (shell : Shell) (steps : List Step) : Shell :=
  steps.foldl (fun shell step => (shell.perform device step).2) shell

/-- What the shell responds to the steps, to each in the state that those before it leave. -/
def responses (device : Device) (shell : Shell) : List Step → List Response
  | [] => []
  | step :: more =>
      let (response, shell) := shell.perform device step
      response :: responses device shell more

/-- The step that switches outlines on and off. -/
def toggle : Step := .command "#showTree"

@[simp] theorem responses_cons (step : Step) (more : List Step) :
    shell.responses device (step :: more) =
      (shell.perform device step).1 :: (shell.perform device step).2.responses device more := rfl

theorem length_responses (steps : List Step) :
    (shell.responses device steps).length = steps.length := by
  induction steps generalizing shell with
  | nil => rfl
  | cons step more ih => rw [responses_cons, List.length_cons, ih, List.length_cons]

theorem responses_append (first second : List Step) :
    shell.responses device (first ++ second) =
      shell.responses device first ++ (shell.performAll device first).responses device second := by
  induction first generalizing shell with
  | nil => rfl
  | cons step more ih => rw [List.cons_append, responses_cons, ih]; rfl

/-! ### What is remembered -/

/-- Only the toggle changes anything. -/
theorem perform_snd (step : Step) :
    (shell.perform device step).2 =
      if step = toggle then { shell with showTree := !shell.showTree } else shell := by
  cases step with
  | line text => rfl
  | command text =>
      by_cases htoggle : text = "#showTree"
      · subst htoggle
        rfl
      · have hother : Step.command text ≠ toggle := fun h => htoggle (Step.command.inj h)
        rw [if_neg hother, perform, Command.ofText?, if_neg htoggle]
        by_cases hclear : text = "#cls"
        · rw [if_pos hclear]
          rfl
        · rw [if_neg hclear]

/-- After several steps outlines are shown as they were before, but switched once for each
toggle. -/
theorem performAll_eq (steps : List Step) :
    shell.performAll device steps =
      { showTree := not^[steps.count toggle] shell.showTree, color := shell.color } := by
  induction steps generalizing shell with
  | nil => rfl
  | cons step more ih =>
      have hmore : shell.performAll device (step :: more) =
          (shell.perform device step).2.performAll device more := rfl
      rw [hmore, perform_snd, ih]
      by_cases htoggle : step = toggle
      · rw [if_pos htoggle, htoggle, List.count_cons_self, Function.iterate_succ_apply]
      · rw [if_neg htoggle, List.count_cons_of_ne htoggle]

/-- Which outlines are shown is all that a shell remembers, and only the toggle changes it: any step
is answered as a fresh shell answers it that shows outlines as often toggled.  A line without a run
of more than 4300 digits is answered, and the answer is determined. -/
theorem only_toggle_remembered (device : Device) (shell : Shell) (steps : List Step)
    (hruns : ∀ text, .line text ∈ steps → Text.DigitRunsWithin 4300 text.toList) :
    shell.performAll device steps =
        { showTree := not^[steps.count (.command "#showTree")] shell.showTree
          color := shell.color } ∧
      (shell.responses device steps).length = steps.length ∧
      ∀ before step later, steps = before ++ step :: later →
        let fresh : Shell :=
          { showTree := not^[before.count (.command "#showTree")] shell.showTree
            color := shell.color }
        (shell.responses device steps)[before.length]? = some (fresh.perform device step).1 ∧
          ∀ text, step = .line text →
            ∃ parsed, parse text = .ok parsed ∧
              Answers device fresh parsed (fresh.perform device step).1 := by
  refine ⟨performAll_eq steps, length_responses steps, ?_⟩
  rintro before step later rfl fresh
  have hfresh : shell.performAll device before = fresh := performAll_eq before
  constructor
  · rw [responses_append, hfresh, responses_cons,
      List.getElem?_append_right (length_responses before).le, length_responses, Nat.sub_self,
      List.getElem?_cons_zero]
  · rintro text rfl
    exact exists_answers device fresh (hruns text (List.mem_append_right _ List.mem_cons_self))

/-- Once outlines are switched on, the answer to `1/0` has six lines for the nodes of its tree and a
last one for the division by zero. -/
theorem only_toggle_remembered_division :
    ∃ response,
      (Shell.responses .plain {} [.command "#showTree", .line "1/0"])[1]? = some response ∧
      ∃ parsed, parse "1/0" = .ok parsed ∧ Answers .plain { showTree := true } parsed response ∧
        (Text.brokenLines response.output.toList).length = 7 := by
  have hruns : ∀ text, .line text ∈ [Step.command "#showTree", .line "1/0"] →
      Text.DigitRunsWithin 4300 text.toList := by
    intro text hmem
    obtain rfl : text = "1/0" := by simpa using hmem
    exact Text.digitRunsWithin_of_length_le (by decide)
  obtain ⟨-, -, hsteps⟩ := only_toggle_remembered .plain {} _ hruns
  obtain ⟨hresponse, hanswers⟩ := hsteps [.command "#showTree"] (.line "1/0") [] rfl
  obtain ⟨parsed, hparse, hanswers⟩ := hanswers "1/0" rfl
  have hcounts : (parse "1/0").map (fun found => (found.root.size, found.diagnostics.length)) =
      .ok (6, 0) := by
    decide +kernel
  rw [hparse] at hcounts
  obtain ⟨hsize, hcount⟩ := Prod.mk.inj (Except.ok.inj hcounts)
  refine ⟨_, hresponse, parsed, hparse, hanswers, hanswers.lines.trans ?_⟩
  rw [hsize, hcount]
  rfl

/-! ### Sessions -/

/-- The lines of a session: those in front of the first blank line. -/
def taken (lines : List String) : List String :=
  lines.takeWhile fun line => !Text.isBlankLine line.toList

/-- What is written in a session: before each response the prompt, and after the last one as
well. -/
def transcript (device : Device) (prompt : String) (responses : List Response) : String :=
  String.join (responses.map fun response => device.write prompt ++ response.output) ++
    device.write prompt

/-- A line calls for the command that stands on it, whatever blanks surround it, or else for an
answer to all of it. -/
theorem Step.ofLine_eq (line : String) :
    Step.ofLine line =
      let text := String.ofList (Text.trim line.toList)
      if text = "#showTree" ∨ text = "#cls" then .command text else .line line := by
  rw [ofLine]
  generalize String.ofList (Text.trim line.toList) = text
  by_cases htoggle : text = "#showTree"
  · simp [Command.ofText?, htoggle]
  · by_cases hclear : text = "#cls"
    · simp [Command.ofText?, hclear]
    · simp [Command.ofText?, htoggle, hclear]

theorem fault_perform_command (text : String) :
    (shell.perform device (.command text)).1.fault = none := by
  rw [perform]
  split <;> rfl

/-- A line without a run of more than 4300 digits does not end the session. -/
theorem fault_perform_ofLine {line : String} (h : Text.DigitRunsWithin 4300 line.toList) :
    (shell.perform device (.ofLine line)).1.fault = none := by
  rw [Step.ofLine_eq]
  dsimp only
  split
  · exact fault_perform_command _
  · obtain ⟨parsed, -, hanswers⟩ := exists_answers device shell h
    exact hanswers.fault

/-- A blank line ends the session. -/
theorem turn_of_isBlankLine {line : String} (h : Text.isBlankLine line.toList = true) :
    shell.turn device line = .leave := by
  rw [turn, if_pos h]

/-- Any other line without a run of more than 4300 digits is performed. -/
theorem turn_of_not_isBlankLine {line : String} (hblank : Text.isBlankLine line.toList = false)
    (hruns : Text.DigitRunsWithin 4300 line.toList) :
    shell.turn device line =
      .proceed (shell.perform device (.ofLine line)).1.output
        (shell.perform device (.ofLine line)).2 := by
  have hfault : (shell.perform device (.ofLine line)).1.fault = none := fault_perform_ofLine hruns
  rw [turn, if_neg (by simp [hblank])]
  simp only [hfault]

/-- A session performs the steps for its lines, one after the other. -/
theorem run_eq {lines : List String}
    (hruns : ∀ line ∈ taken lines, Text.DigitRunsWithin 4300 line.toList) :
    shell.run device prompt lines =
      { output :=
          transcript device prompt (shell.responses device ((taken lines).map Step.ofLine)) } := by
  induction lines generalizing shell with
  | nil => rfl
  | cons line more ih =>
      rw [run]
      cases hblank : Text.isBlankLine line.toList with
      | true =>
          rw [turn_of_isBlankLine hblank, taken, List.takeWhile_cons_of_neg (by simp [hblank])]
          rfl
      | false =>
          have htaken : taken (line :: more) = line :: taken more :=
            List.takeWhile_cons_of_pos (by simp [hblank])
          rw [htaken] at hruns ⊢
          obtain ⟨hline, hmore⟩ := List.forall_mem_cons.1 hruns
          rw [turn_of_not_isBlankLine hblank hline]
          simp only [ih hmore, List.map_cons, responses_cons, transcript, String.join_cons,
            String.append_assoc]

/-- What stands behind a blank line does not matter. -/
theorem run_append_of_blank {lines : List String}
    (h : ∃ line ∈ lines, Text.isBlankLine line.toList = true) (more : List String) :
    shell.run device prompt (lines ++ more) = shell.run device prompt lines := by
  induction lines generalizing shell with
  | nil => simp at h
  | cons line lines ih =>
      rw [List.cons_append, run, run]
      obtain ⟨found, hmem, hfound⟩ := h
      rcases List.mem_cons.1 hmem with rfl | hlater
      · rw [turn_of_isBlankLine hfound]
      · simp only [ih ⟨found, hlater, hfound⟩]

/-- Two sessions whose lines agree up to a blank line are the same. -/
theorem run_eq_of_prefix {shared first second : List String}
    (hblank : ∃ line ∈ shared, Text.isBlankLine line.toList = true) (hfirst : shared <+: first)
    (hsecond : shared <+: second) :
    shell.run device prompt first = shell.run device prompt second := by
  obtain ⟨more, rfl⟩ := hfirst
  obtain ⟨other, rfl⟩ := hsecond
  rw [run_append_of_blank hblank, run_append_of_blank hblank]

/-- Two uses of the program whose inputs agree up to a blank line are the same. -/
theorem program_eq_of_prefix {arguments : List String} {setting : Option String}
    {first second : String} {shared : List (List Char)}
    (hblank : ∃ line ∈ shared, Text.isBlankLine line = true)
    (hfirst : shared <+: Text.lines first.toList) (hsecond : shared <+: Text.lines second.toList) :
    CommandLine.run device arguments setting first =
      CommandLine.run device arguments setting second := by
  have hsession : ∀ start, CommandLine.session device start first =
      CommandLine.session device start second := by
    intro start
    obtain ⟨line, hmem, hline⟩ := hblank
    have hshared : ∃ text ∈ shared.map String.ofList, Text.isBlankLine text.toList = true :=
      ⟨String.ofList line, List.mem_map_of_mem hmem, by rwa [String.toList_ofList]⟩
    have hrun : start.shell.run device start.prompt ((Text.lines first.toList).map String.ofList) =
        start.shell.run device start.prompt ((Text.lines second.toList).map String.ofList) :=
      run_eq_of_prefix hshared (hfirst.map String.ofList) (hsecond.map String.ofList)
    simp only [CommandLine.session, hrun]
  simp only [CommandLine.run, hsession]

/-- A session writes the prompt before the response to each line in front of the first blank one,
and once more at the end; the responses are those to the steps that the lines call for, one after
the other.  Each of its turns either leaves, at a blank line, or proceeds with what the step for the
line responds and leaves behind.  It ends without a fault, and nothing behind a blank line matters
to it. -/
theorem run_follows_steps (device : Device) (prompt : String) (shell : Shell) (lines : List String)
    (hruns : ∀ line ∈ taken lines, Text.DigitRunsWithin 4300 line.toList) :
    let output := transcript device prompt (shell.responses device ((taken lines).map Step.ofLine))
    shell.run device prompt lines = { output, fault := none } ∧
      (∀ input : String, (Text.lines input.toList).map String.ofList = lines →
        CommandLine.session device { shell, prompt } input = { exit := .code 0, output }) ∧
      (∀ (current : Shell) (line : String), Text.DigitRunsWithin 4300 line.toList →
        current.turn device line =
          if Text.isBlankLine line.toList then .leave
          else .proceed (current.perform device (.ofLine line)).1.output
            (current.perform device (.ofLine line)).2) ∧
      (∀ line, Step.ofLine line =
        let text := String.ofList (Text.trim line.toList)
        if text = "#showTree" ∨ text = "#cls" then .command text else .line line) ∧
      (∀ shared first second : List String,
        (∃ line ∈ shared, Text.isBlankLine line.toList = true) →
          shared <+: first → shared <+: second →
            shell.run device prompt first = shell.run device prompt second) ∧
      ∀ (arguments : List String) (setting : Option String) (first second : String)
        (shared : List (List Char)), (∃ line ∈ shared, Text.isBlankLine line = true) →
          shared <+: Text.lines first.toList → shared <+: Text.lines second.toList →
            CommandLine.run device arguments setting first =
              CommandLine.run device arguments setting second := by
  intro output
  have hrun : shell.run device prompt lines = { output, fault := none } := run_eq hruns
  refine ⟨hrun, ?_, ?_, Step.ofLine_eq, ?_, ?_⟩
  · rintro input rfl
    simp only [CommandLine.session, hrun]
    rfl
  · intro current line hline
    cases hblank : Text.isBlankLine line.toList with
    | true => exact turn_of_isBlankLine hblank
    | false => exact turn_of_not_isBlankLine hblank hline
  · exact fun shared first second hblank => run_eq_of_prefix hblank
  · exact fun arguments setting first second shared hblank => program_eq_of_prefix hblank

/-- A session over the lines ` #showTree`, `2*3`, a blank line and `7`: the last of them has no
response. -/
theorem run_follows_steps_product :
    Shell.run .plain "> " {} [" #showTree", "2*3", "  ", "7"] =
        { output := transcript .plain "> "
            (Shell.responses .plain {} [.command "#showTree", .line "2*3"]) } ∧
      CommandLine.run .plain [] none " #showTree\n2*3\n  \n7" =
        CommandLine.run .plain [] none " #showTree\n2*3\n  \n7/0" := by
  have hruns : ∀ line ∈ taken [" #showTree", "2*3", "  ", "7"],
      Text.DigitRunsWithin 4300 line.toList := by
    have hshort : ∀ line ∈ taken [" #showTree", "2*3", "  ", "7"],
        line.toList.length ≤ 4300 := by
      decide +kernel
    exact fun line hmem => Text.digitRunsWithin_of_length_le (hshort line hmem)
  obtain ⟨hrun, -, -, -, -, hprogram⟩ := run_follows_steps .plain "> " {} _ hruns
  have hsteps : (taken [" #showTree", "2*3", "  ", "7"]).map Step.ofLine =
      [.command "#showTree", .line "2*3"] := by
    decide +kernel
  rw [hsteps] at hrun
  refine ⟨hrun, hprogram [] none _ _ [" #showTree".toList, "2*3".toList, "  ".toList] ?_ ?_ ?_⟩
  · exact ⟨"  ".toList, by simp, by decide +kernel⟩
  · decide +kernel
  · decide +kernel

end Calculator.Shell
