import MiniLisp.LineLoop
import MiniLisp.Proofs.Reader.Culprit
import MiniLisp.Proofs.Session.Concatenation

/-!
# The line loop and one input

The line loop evaluates its lines as inputs one after another, blank ones too: passing over a line
of blanks is the same as evaluating it (`LineLoop.respond_eq`). It goes on after every error but
one, the host's for a numeral with more digits than it converts (`LineLoop.escaping?_eval`). If
every line can be read and nothing fails, then this leaves the session that the whole text leaves as
one input, with the same lines printed (`LineLoop.converse_agrees`): the reader takes the newlines
between the lines for blanks, and evaluation goes on from line to line as it does from expression to
expression.
-/

namespace MiniLisp

/-! ## Lines of blanks -/

theorem isBlank_of_trim_eq_empty {s : String} (h : Text.trim s = "") :
    ∀ c ∈ s.toList, Text.isBlank c := by
  have hchars : (s.toList.dropWhile Text.isBlank).reverse.dropWhile Text.isBlank = [] := by
    have hlist := congrArg String.toList h
    rwa [Text.trim, String.toList_ofList, String.toList_empty, List.reverse_eq_nil_iff] at hlist
  rw [List.dropWhile_eq_nil_iff] at hchars
  -- What the first run of blanks leaves starts with no blank, so it leaves nothing.
  cases hrest : s.toList.dropWhile Text.isBlank with
  | nil => exact List.dropWhile_eq_nil_iff.1 hrest
  | cons c cs =>
    have hc := hchars c (by rw [hrest]; simp)
    have hhead : Text.isBlank c = false := by
      have hne : s.toList.dropWhile Text.isBlank ≠ [] := by simp [hrest]
      have hnot := List.head_dropWhile_not Text.isBlank hne
      simpa only [hrest, List.head_cons] using hnot
    rw [hhead] at hc
    cases hc

theorem gapLength_of_blank {cs : List Char} (h : ∀ c ∈ cs, Text.isBlank c) :
    gapLength false cs = cs.length := by
  induction cs with
  | nil => rfl
  | cons c cs ih =>
    obtain ⟨hc, hcs⟩ := List.forall_mem_cons.1 h
    have hstep : gapStep false c = some false := by simp [gapStep, hc]
    rw [gapLength_cons_of_some hstep, ih hcs, List.length_cons]

/-- Nothing is read in a source that is all gap. -/
theorem readValues_of_gap [Host] {source : String}
    (h : gapLength false source.toList = source.toList.length) :
    (readValues source).values = [] ∧ (readValues source).error = none := by
  have hlex : lex source.toList 0 = ⟨[], none⟩ := lexFrom_eq_nil_iff.2 h
  have htokens : (Reader.ofString source).tokens = [] := congrArg Lexing.tokens hlex
  have herror : (Reader.ofString source).error = none := congrArg Lexing.error hlex
  rw [readValues, Reader.readAll_of_tokens_eq_nil htokens herror]
  exact ⟨rfl, rfl⟩

theorem Session.eval_of_trim_eq_empty [Host] {line : String} (h : Text.trim line = "")
    (s : Session) : s.eval line = (s, pure .unit) := by
  obtain ⟨hvalues, hread⟩ := readValues_of_gap (gapLength_of_blank (isBlank_of_trim_eq_empty h))
  rw [eval_of_error_eq_none hread, hvalues]
  rfl

/-! ## Reading line by line -/

/-- Lines that can be read each for itself are read to the same values with newlines between
them. -/
theorem readValues_intercalate [Host] {pieces : List (List Char)} (hne : pieces ≠ [])
    (h : ∀ piece ∈ pieces, (readValues (String.ofList piece)).error = none) :
    (readValues (String.ofList (['\n'].intercalate pieces))).values =
        pieces.flatMap (fun piece => (readValues (String.ofList piece)).values) ∧
      (readValues (String.ofList (['\n'].intercalate pieces))).error = none := by
  induction pieces with
  | nil => exact absurd rfl hne
  | cons piece pieces ih =>
    obtain ⟨hpiece, hpieces⟩ := List.forall_mem_cons.1 h
    cases pieces with
    | nil =>
      rw [List.intercalate_singleton, List.flatMap_singleton]
      exact ⟨rfl, hpiece⟩
    | cons next others =>
      obtain ⟨hvalues, herror⟩ := ih (List.cons_ne_nil next others) hpieces
      have happend : String.ofList (['\n'].intercalate (piece :: next :: others)) =
          String.ofList piece ++ "\n" ++
            String.ofList (['\n'].intercalate (next :: others)) := by
        rw [← String.toList_inj]
        simp [List.intercalate_cons_cons]
      obtain ⟨hboth, hend⟩ := readValues_newline_append hpiece
        (String.ofList (['\n'].intercalate (next :: others)))
      rw [happend, List.flatMap_cons, hboth, hvalues, hend, herror]
      exact ⟨rfl, rfl⟩

/-- A text whose lines can be read each for itself is read to their values. -/
theorem readValues_lines [Host] {text : String}
    (h : ∀ line ∈ LineLoop.lines text, (readValues line).error = none) :
    (readValues text).values =
        (LineLoop.lines text).flatMap (fun line => (readValues line).values) ∧
      (readValues text).error = none := by
  obtain ⟨pieces, hpieces⟩ : ∃ pieces, text.toList.splitOn '\n' = pieces := ⟨_, rfl⟩
  have hne : pieces ≠ [] := hpieces ▸ List.splitOn_ne_nil '\n' text.toList
  have htext : String.ofList (['\n'].intercalate pieces) = text := by
    rw [← hpieces, List.intercalate_splitOn, String.ofList_toList]
  rw [LineLoop.lines, hpieces] at h ⊢
  rw [← htext]
  by_cases hlast : pieces.getLast? = some []
  · -- The newline at the end starts no line, and what would stand there holds nothing.
    obtain ⟨front, rfl⟩ := List.getLast?_eq_some_iff.1 hlast
    simp only [hlast, if_true, List.dropLast_concat, List.mem_map, forall_exists_index,
      and_imp, forall_apply_eq_imp_iff₂] at h
    have hblank : (readValues (String.ofList [])).values = [] ∧
        (readValues (String.ofList [])).error = none := readValues_of_gap rfl
    obtain ⟨hvalues, herror⟩ := readValues_intercalate hne
      (List.forall_mem_append.2 ⟨h, List.forall_mem_singleton.2 hblank.2⟩)
    simp only [hlast, if_true, List.dropLast_concat, List.flatMap_map]
    refine ⟨?_, herror⟩
    rw [hvalues, List.flatMap_append, List.flatMap_singleton, hblank.1, List.append_nil]
  · simp only [hlast, if_false, List.mem_map, forall_exists_index, and_imp,
      forall_apply_eq_imp_iff₂] at h
    simp only [hlast, if_false, List.flatMap_map]
    exact readValues_intercalate hne h

/-! ## Evaluating line by line -/

namespace Session

/-- Inputs evaluated one after another, with the run of each. One that fails does not keep those
after it from being evaluated. -/
def evalLines [Host] (s : Session) : List String → Session × List (Run Value)
  | [] => (s, [])
  | line :: rest =>
    (((s.eval line).1.evalLines rest).1, (s.eval line).2 :: ((s.eval line).1.evalLines rest).2)

variable {s : Session}

-- The value before some expressions makes no difference to what they leave and print.
theorem evalEach_of_last (last last' : Value) {es : List Value} {v : Value}
    (h : (evalEach .ok s last' es).2.result = .ok v) :
    ∃ w, evalEach .ok s last es =
      ((evalEach .ok s last' es).1, ⟨(evalEach .ok s last' es).2.out, .ok w⟩) := by
  cases es with
  | nil => exact ⟨last, rfl⟩
  | cons e es => exact ⟨v, Prod.ext rfl (Run.ext rfl h)⟩

/-- Inputs that can be read and do not fail leave what their expressions leave in a row. -/
theorem evalEach_flatMap [Host] (last : Value) {inputs : List String}
    (hread : ∀ line ∈ inputs, (readValues line).error = none)
    (hruns : ∀ run ∈ (s.evalLines inputs).2, ∃ v, run.result = .ok v) :
    ∃ w, evalEach .ok s last (inputs.flatMap fun line => (readValues line).values) =
      ((s.evalLines inputs).1, ⟨((s.evalLines inputs).2.map Run.out).flatten, .ok w⟩) := by
  induction inputs generalizing s last with
  | nil => exact ⟨last, rfl⟩
  | cons line inputs ih =>
    obtain ⟨hline, hinputs⟩ := List.forall_mem_cons.1 hread
    obtain ⟨⟨v, hv⟩, hothers⟩ := List.forall_mem_cons.1 hruns
    rw [eval_of_error_eq_none hline] at hv
    obtain ⟨w, hw⟩ := evalEach_of_last last .unit hv
    rw [← eval_of_error_eq_none hline] at hw
    have hresult : (evalEach .ok s last (readValues line).values).2.result = .ok w := by rw [hw]
    obtain ⟨u, hu⟩ := ih w hinputs hothers
    refine ⟨u, ?_⟩
    rw [List.flatMap_cons, evalEach_append_of_ok hresult, hw, hu]
    rfl

end Session

/-! ## The loop -/

namespace LineLoop

/-- All that is shown of some runs, each with a prompt before it. -/
def exchanges (runs : List (Run Value)) : String :=
  String.join (runs.map fun run => prompt ++ (run.printed ++ echo run.result))

theorem exchanges_cons (run : Run Value) (runs : List (Run Value)) :
    exchanges (run :: runs) = prompt ++ (run.printed ++ echo run.result) ++ exchanges runs := by
  rw [exchanges, exchanges, List.map_cons, String.join_cons]

section

variable [Host]

/-- A line is answered with what its evaluation prints and ends in, a line of blanks too. -/
theorem respond_eq (s : Session) (line : String) :
    respond s line = ((s.eval line).1,
      ⟨(s.eval line).2.printed ++ echo (s.eval line).2.result,
        escaping? (s.eval line).2.result⟩) := by
  unfold respond
  by_cases h : Text.trim line = ""
  · rw [if_pos h, Session.eval_of_trim_eq_empty h]
    rfl
  · rw [if_neg h]

/-- Evaluation raises errors of the language only, so what ends the loop is raised in reading. -/
theorem escaping?_eval {s : Session} {line : String} {error : Error}
    (h : escaping? (s.eval line).2.result = some error) :
    ∃ e, error = .read e ∧ Overlong line.toList e := by
  cases hresult : (s.eval line).2.result with
  | ok v =>
    rw [hresult] at h
    cases h
  | error error' =>
    rw [hresult, escaping?] at h
    obtain ⟨hforeign, hsame⟩ := Option.ite_none_right_eq_some.1 h
    cases hsame
    obtain heval | ⟨e, he, rfl⟩ := Session.eval_error_cases hresult
    · cases error <;> simp_all [Error.isForeign, Error.isEvaluation]
    · refine ⟨e, rfl, (Culprit.of_refuses (Reader.readAll_refuses he)).resolve_left ?_⟩
      rintro ⟨hown, -⟩
      rw [Error.isForeign, hown] at hforeign
      cases hforeign

section

variable {s : Session} {line : String} {inputs : List String}

theorem converse_cons_of_none (h : escaping? (s.eval line).2.result = none) :
    converse s (line :: inputs) = ((converse (s.eval line).1 inputs).1,
      ⟨prompt ++ ((s.eval line).2.printed ++ echo (s.eval line).2.result) ++
        (converse (s.eval line).1 inputs).2.shown,
        (converse (s.eval line).1 inputs).2.escaped⟩) := by
  rw [converse, respond_eq]
  simp only [h]

theorem converse_cons_of_some {error : Error}
    (h : escaping? (s.eval line).2.result = some error) :
    converse s (line :: inputs) = ((s.eval line).1,
      ⟨prompt ++ ((s.eval line).2.printed ++ echo (s.eval line).2.result), some error⟩) := by
  rw [converse, respond_eq]
  simp only [h]

end

/-- After lines that do not end the loop, it shows their runs and goes on in the session that they
leave, evaluated as inputs one after another. -/
theorem converse_append {s : Session} {inputs : List String}
    (h : ∀ run ∈ (s.evalLines inputs).2, escaping? run.result = none) (more : List String) :
    converse s (inputs ++ more) = ((converse (s.evalLines inputs).1 more).1,
      ⟨exchanges (s.evalLines inputs).2 ++ (converse (s.evalLines inputs).1 more).2.shown,
        (converse (s.evalLines inputs).1 more).2.escaped⟩) := by
  induction inputs generalizing s with
  | nil =>
    rw [Session.evalLines, exchanges, List.map_nil, String.join_nil, String.empty_append]
    rfl
  | cons line inputs ih =>
    obtain ⟨hline, hinputs⟩ := List.forall_mem_cons.1 h
    rw [List.cons_append, converse_cons_of_none hline, ih hinputs, Session.evalLines,
      exchanges_cons]
    simp only [String.append_assoc]

theorem converse_eq {s : Session} {inputs : List String}
    (h : ∀ run ∈ (s.evalLines inputs).2, escaping? run.result = none) :
    converse s inputs = ((s.evalLines inputs).1,
      ⟨exchanges (s.evalLines inputs).2 ++ (prompt ++ "\n"), none⟩) := by
  have hall := converse_append h []
  rwa [List.append_nil] at hall

end

/-- A line that fails is answered with what it prints and one message, any other with what it prints
and its value; passing over blanks makes no difference to this. Only a line with a numeral that the
host does not convert is left unanswered. So the loop shows the runs of its lines, evaluated one
after another, up to the first such line, which ends it. If every line can be read and none fails,
they leave the session that the whole text leaves as one input, which prints the same and does not
fail. -/
theorem converse_agrees [Host] (s : Session) (text : String) :
    (∀ (t : Session) (line : String),
      (Text.trim line = "" → t.eval line = (t, pure .unit)) ∧
        respond t line = ((t.eval line).1,
          match (t.eval line).2.result with
          | .ok .unit => ⟨(t.eval line).2.printed, none⟩
          | .ok v => ⟨(t.eval line).2.printed ++ (v.render ++ "\n"), none⟩
          | .error e =>
            if e.isForeign then ⟨(t.eval line).2.printed, some e⟩
            else ⟨(t.eval line).2.printed ++ ("Error: " ++ e.message ++ "\n"), none⟩) ∧
        ∀ error, (respond t line).2.escaped = some error →
          ∃ e, error = .read e ∧ Overlong line.toList e) ∧
      ((∀ run ∈ (s.evalLines (lines text)).2, escaping? run.result = none) →
        converse s (lines text) = ((s.evalLines (lines text)).1,
          ⟨exchanges (s.evalLines (lines text)).2 ++ (prompt ++ "\n"), none⟩)) ∧
      (∀ (before : List String) (line : String) (after : List String) (error : Error),
        lines text = before ++ line :: after →
          (∀ run ∈ (s.evalLines before).2, escaping? run.result = none) →
            ((s.evalLines before).1.eval line).2.result = .error error → error.isForeign →
              converse s (lines text) = (((s.evalLines before).1.eval line).1,
                ⟨exchanges (s.evalLines before).2 ++
                  (prompt ++ ((s.evalLines before).1.eval line).2.printed), some error⟩)) ∧
      ((∀ line ∈ lines text, (readValues line).error = none) →
        (∀ run ∈ (s.evalLines (lines text)).2, ∃ v, run.result = .ok v) →
          (converse s (lines text)).1 = (s.eval text).1 ∧
            (converse s (lines text)).2.escaped = none ∧
            (s.eval text).2.out = ((s.evalLines (lines text)).2.map Run.out).flatten ∧
            ∃ v, (s.eval text).2.result = .ok v) := by
  refine ⟨fun t line => ⟨fun h => Session.eval_of_trim_eq_empty h t, ?_, fun error h => ?_⟩,
    converse_eq, fun before line after error htext hbefore hline hforeign => ?_,
    fun hread hruns => ?_⟩
  · rw [respond_eq]
    rcases (t.eval line).2.result with e | v
    · cases hforeign : e.isForeign <;> simp [echo, escaping?, hforeign]
    · cases v <;> simp [echo, escaping?]
  · rw [respond_eq] at h
    exact escaping?_eval h
  · have hescapes : escaping? ((s.evalLines before).1.eval line).2.result = some error := by
      rw [hline, escaping?, if_pos hforeign]
    rw [htext, converse_append hbefore, converse_cons_of_some hescapes, hline, echo,
      if_pos hforeign, String.append_empty]
  · have hanswered : ∀ run ∈ (s.evalLines (lines text)).2, escaping? run.result = none := by
      intro run hrun
      obtain ⟨v, hv⟩ := hruns run hrun
      rw [hv, escaping?]
    obtain ⟨hvalues, herror⟩ := readValues_lines hread
    obtain ⟨v, hv⟩ := Session.evalEach_flatMap .unit hread hruns
    rw [converse_eq hanswered, Session.eval_of_error_eq_none herror, hvalues, hv]
    exact ⟨rfl, rfl, rfl, v, rfl⟩

/-- The second line is blank and the third ends in a comment. -/
theorem converse_agrees_commented :
    ∃ (s : Session) (text : String), s = {} ∧
      text = "(def! x 1)\n \n(print \"a\") (+ x 1) ; two\n(debug x)\n" ∧
      (converse s (lines text)).2.shown = "> > > a\n2\n> 1\n1\n> \n" ∧
      (converse s (lines text)).1 = (s.eval text).1 ∧ (s.eval text).2.out = ["a", "1"] ∧
      (respond s "(print \"a\") y").2.shown = "a\nError: Unknown identifier `y`.\n" := by
  obtain ⟨s, hs⟩ : ∃ s : Session, s = {} := ⟨_, rfl⟩
  obtain ⟨text, htext⟩ : ∃ text,
    text = "(def! x 1)\n \n(print \"a\") (+ x 1) ; two\n(debug x)\n" := ⟨_, rfl⟩
  have hread : ∀ line ∈ lines text, (readValues line).error = none := by
    rw [htext]
    decide +kernel
  have hruns : ∀ run ∈ (s.evalLines (lines text)).2, ∃ v, run.result = .ok v := by
    rw [hs, htext]
    decide +kernel
  have hanswered : ∀ run ∈ (s.evalLines (lines text)).2, escaping? run.result = none := by
    intro run hrun
    obtain ⟨v, hv⟩ := hruns run hrun
    rw [hv, escaping?]
  obtain ⟨hlines, hloop, -, hone⟩ := converse_agrees s text
  obtain ⟨hsession, -, hout, -⟩ := hone hread hruns
  refine ⟨s, text, hs, htext, ?_, hsession, ?_, ?_⟩
  · rw [hloop hanswered, hs, htext]
    decide +kernel
  · rw [hout, hs, htext]
    decide +kernel
  · rw [(hlines s "(print \"a\") y").2.1, hs]
    decide +kernel

-- A newline ends the first line, if there is none before it.
theorem lines_newline_append {cs : List Char} (h : '\n' ∉ cs) (rest : List Char) :
    lines (String.ofList (cs ++ '\n' :: rest)) =
      String.ofList cs :: lines (String.ofList rest) := by
  have hne := List.splitOn_ne_nil '\n' rest
  simp only [lines, String.toList_ofList, List.splitOn_append_cons_self_of_not_mem h,
    List.getLast?_cons_of_ne_nil hne]
  split
  · rw [List.dropLast_cons_of_ne_nil hne, List.map_cons]
  · rw [List.map_cons]

/-- A line of five thousand digits ends the loop. It is not answered, and the line after it is not
evaluated. -/
theorem overlong_line_ends_loop :
    ∃ (line text : String) (error : Error), line = String.ofList (List.replicate 5000 '1') ∧
      text = String.ofList (List.replicate 5000 '1' ++ "\n2\n".toList) ∧
      lines text = [line, "2"] ∧ (respond {} line).2 = ⟨"", some error⟩ ∧
      converse {} (lines text) = ({}, ⟨"> ", some error⟩) ∧
      transcript Settings.defaultMaxDepth text = "> " ∧
      ¬ ∀ (s : Session) (line : String) (error : Error), (s.eval line).2.result = .error error →
        (respond s line).2 =
          ⟨(s.eval line).2.printed ++ ("Error: " ++ error.message ++ "\n"), none⟩ := by
  obtain ⟨line, hline⟩ : ∃ line, line = String.ofList (List.replicate 5000 '1') := ⟨_, rfl⟩
  obtain ⟨error, herror⟩ : ∃ error, error = Error.read ⟨.tooManyDigits 5000 4300, 0⟩ := ⟨_, rfl⟩
  have heval : ({} : Session).eval line = ({}, ⟨[], .error error⟩) := by
    have hlimit : Host.exceeded? 5000 = some 4300 := by decide
    obtain ⟨-, hvalues, hread⟩ := Numeral.readAll_replicate (c := '1') (by decide) hlimit
    rw [Session.eval_eq, hline, hvalues, hread, herror]
    rfl
  have hescapes : escaping? (({} : Session).eval line).2.result = some error := by
    rw [heval, herror]
    rfl
  have hrespond : respond {} line = ({}, ⟨"", some error⟩) := by
    rw [respond_eq, hescapes, heval, herror]
    rfl
  have hlines : lines (String.ofList (List.replicate 5000 '1' ++ "\n2\n".toList)) =
      [line, "2"] := by
    have hnone : '\n' ∉ List.replicate 5000 '1' := fun hmem => by
      cases List.eq_of_mem_replicate hmem
    rw [hline]
    exact (lines_newline_append hnone _).trans (congrArg _ (by decide +kernel))
  have hconverse : converse {} [line, "2"] = ({}, ⟨"> ", some error⟩) := by
    rw [converse_cons_of_some hescapes, heval, herror]
    rfl
  refine ⟨line, _, error, hline, rfl, hlines, by rw [hrespond], by rw [hlines, hconverse],
    by rw [transcript, answerAll, hlines, hconverse], fun h => ?_⟩
  have hanswer := congrArg Answer.escaped (h {} line error (by rw [heval]))
  rw [hrespond] at hanswer
  cases hanswer

end LineLoop

end MiniLisp
