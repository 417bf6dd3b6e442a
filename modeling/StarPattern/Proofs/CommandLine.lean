/-
**What the command reports.**

A request for a decision has its operands behind `--` or, where neither of them starts with a
hyphen, without it.  Of the reader of arguments one thing is assumed: it binds the operands of such
a request.  Then the answer and the status are the decision for the two texts.  Being verbose adds
one record for a pattern text that can be read, which shows the pattern text itself, and for any
other the rejection and one record of it.  Nothing of this can fail, although a pattern is written
as text on the way and not every pattern can be.

Main definitions:

* `StarPattern.CommandLine.request` — the arguments of a request;
* `StarPattern.CommandLine.Unhyphenated` — its operands need no `--` before them;
* `StarPattern.CommandLine.BindsOperands` — **what is assumed of a reader of arguments**;
* `StarPattern.CommandLine.requestReader` — a reader that knows requests and nothing else.

Main results:

* `StarPattern.CommandLine.Setting.diagnostics_of_parsed`,
  `StarPattern.CommandLine.Setting.diagnostics_of_rejected` — what being verbose adds;
* `StarPattern.CommandLine.Setting.respond_to_request` — **the outcome** of a request.
-/
import StarPattern.CommandLine
import StarPattern.Proofs.Language.Reading
import StarPattern.Proofs.Table.Decision
import StarPattern.Text.Printable

set_option relaxedAutoImplicit false
set_option autoImplicit false

namespace StarPattern

namespace CommandLine

variable {setting : Setting} {program : List Text} {pattern text : Text}
variable {verbose hyphens matched : Bool} {parsed : Pattern} {rejection : Rejection}
variable {report : List Text}

/-! ### Requests and the readers that bind them -/

/-- The arguments that ask whether a pattern text matches a text, with `--` before the two or
not. -/
def request (verbose hyphens : Bool) (pattern text : Text) : List Text :=
  "match".toList :: ((if verbose then ["--verbose".toList] else []) ++
    ((if hyphens then ["--".toList] else []) ++ [pattern, text]))

/-- Neither operand can be taken for an option. -/
def Unhyphenated (pattern text : Text) : Prop :=
  pattern.head? ≠ some '-' ∧ text.head? ≠ some '-'

instance (pattern text : Text) : Decidable (Unhyphenated pattern text) :=
  inferInstanceAs (Decidable (_ ∧ _))

/-- The reader binds the operands of every request that cannot be taken for something else. -/
def BindsOperands (reader : Reader) : Prop :=
  ∀ verbose hyphens pattern text, (hyphens = false → Unhyphenated pattern text) →
    reader usage (request verbose hyphens pattern text) = .ok (.decide verbose pattern text)

/-! ### What is reported -/

namespace Setting

theorem diagnostics_of_parsed (h : Language.standard.parse pattern = .ok parsed) :
    setting.diagnostics pattern =
      .ok ["DEBUG:".toList ++ (setting.component ++ (":parsed pattern ".toList ++ pattern))] := by
  -- the pattern of a text is written as that text
  have hwrite : Language.standard.write (.valid parsed) = .ok pattern :=
    Language.parse_eq_ok_iff_write.1 h
  have hreport : setting.readingReport pattern =
      .ok ["DEBUG:".toList ++ (setting.component ++ (":parsed pattern ".toList ++ pattern))] := by
    simp only [readingReport, h, hwrite]
    rfl
  simp only [diagnostics, hreport, Language.log_of_parsed h]
  rfl

theorem diagnostics_of_rejected (h : Language.standard.parse pattern = .error rejection) :
    setting.diagnostics pattern =
      .ok [rejection.message, "DEBUG:regex_lite.parser:rejected pattern ".toList ++
        (pattern.quoted setting.repertoire ++ (": ".toList ++ rejection.reason))] := by
  have hreport : setting.readingReport pattern = .ok [rejection.message] := by
    simp only [readingReport, h]
  simp only [diagnostics, hreport, Language.log_of_rejected h]
  rfl

end Setting

/-- There is a decision for any two texts. -/
theorem exists_decideMatch (pattern text : Text) :
    ∃ matched, decideMatch (.text pattern) (.text text) = .ok matched := by
  cases hp : Language.standard.parse pattern with
  | error rejection => exact ⟨false, decideMatch_of_rejected hp (.text text)⟩
  | ok parsed =>
      obtain ⟨matched, hd, -⟩ :=
        Table.exists_accepts_text (Language.standard.parse_isConcrete hp) text
      exact ⟨matched, by rw [decideMatch_of_parsed hp, hd]⟩

/-! ### Outcomes -/

/-- The reason why a text is rejected is one line. -/
theorem newline_not_mem_reason (i : Nat) : '\n' ∉ Language.standard.reason i := by
  unfold Language.reason
  split <;> decide

theorem lines_message (reason marked : Text) (later : List Text) :
    lines ((⟨reason, some marked⟩ : Rejection).message :: later) =
      reason ++ '\n' :: (marked ++ '\n' :: lines later) := by
  simp [lines, Rejection.message]

namespace Setting

/-- The outcome of a decision: its answer, its status and a report. -/
theorem respondTo_decide (hd : decideMatch (.text pattern) (.text text) = .ok matched)
    (hr : (if verbose then setting.diagnostics pattern else .ok []) = .ok report) :
    setting.respondTo program (.decide verbose pattern text) =
      .ok ⟨if matched then 0 else 1, (if matched then "true\n" else "false\n").toList,
        lines report⟩ := by
  cases verbose with
  | false =>
      obtain rfl : [] = report := Except.ok.inj hr
      simp only [respondTo, hd]
      cases matched <;> rfl
  | true =>
      rw [if_pos rfl] at hr
      simp only [respondTo, if_true, hr, hd]
      cases matched <;> rfl

/-- **The outcome of a request.**  For all two texts there is a decision whether the first, as a
pattern text, matches the second.  Whatever the setting is, as long as its reader of arguments binds
the operands of requests: asked for the decision, in any of the ways that cannot be taken for
something else, the command writes it as its answer, with status 0 or 1.  Without being verbose it
writes nothing else.  Verbose, for a pattern text that can be read, it writes one record, which
shows the pattern text itself, since the pattern is written as that.  For any other it writes the
reason, the text with a caret under its first misplaced marker, and one record, which is a single
line with the quoted text and the same reason. -/
theorem respond_to_request (setting : Setting) (hbinds : BindsOperands setting.reader)
    (pattern text : Text) :
    ∃ matched, decideMatch (.text pattern) (.text text) = .ok matched ∧
      ∀ name verbose hyphens, (hyphens = false → Unhyphenated pattern text) →
        ∃ outcome, setting.respond (name :: request verbose hyphens pattern text) = .ok outcome ∧
          outcome.status = (if matched then 0 else 1) ∧
          outcome.stdout = (if matched then "true\n" else "false\n").toList ∧
          (verbose = false → outcome.stderr = []) ∧
          (verbose = true →
            (∀ parsed, Language.standard.parse pattern = .ok parsed →
              Language.standard.write (.valid parsed) = .ok pattern ∧
              outcome.stderr = "DEBUG:".toList ++ (setting.component ++
                (":parsed pattern ".toList ++ (pattern ++ ['\n'])))) ∧
            (∀ rejection, Language.standard.parse pattern = .error rejection →
              ∃ i record, Language.standard.FirstMisplaced pattern i ∧
                record = "DEBUG:regex_lite.parser:rejected pattern ".toList ++
                  (pattern.quoted setting.repertoire ++ (": ".toList ++ rejection.reason)) ∧
                '\n' ∉ record ∧
                outcome.stderr = rejection.reason ++ '\n' ::
                  (pattern ++ '\n' :: (List.replicate i ' ' ++ '^' :: '\n' ::
                    (record ++ ['\n']))))) := by
  obtain ⟨matched, hd⟩ := exists_decideMatch pattern text
  refine ⟨matched, hd, fun name verbose hyphens h => ?_⟩
  have hrespond : ∀ report,
      (if verbose then setting.diagnostics pattern else .ok []) = .ok report →
      setting.respond (name :: request verbose hyphens pattern text) =
        .ok ⟨if matched then 0 else 1, (if matched then "true\n" else "false\n").toList,
          lines report⟩ := fun report hr => by
    rw [respond, List.drop_one, List.tail_cons, hbinds verbose hyphens pattern text h]
    exact respondTo_decide hd hr
  cases verbose with
  | false => exact ⟨_, hrespond [] rfl, rfl, rfl, fun _ => rfl, by simp⟩
  | true =>
      cases hp : Language.standard.parse pattern with
      | ok parsed =>
          refine ⟨_, hrespond _ (diagnostics_of_parsed hp), rfl, rfl, by simp, fun _ => ?_⟩
          refine ⟨fun found hf => ?_, by simp⟩
          obtain rfl : parsed = found := Except.ok.inj hf
          exact ⟨Language.parse_eq_ok_iff_write.1 hp, by simp [lines]⟩
      | error rejection =>
          refine ⟨_, hrespond _ (diagnostics_of_rejected hp), rfl, rfl, by simp, fun _ => ?_⟩
          refine ⟨by simp, fun found hf => ?_⟩
          obtain rfl : rejection = found := Except.error.inj hf
          obtain ⟨i, hi, rfl⟩ := Language.exists_firstMisplaced_of_rejected hp
          refine ⟨i, _, hi, rfl, ?_, ?_⟩
          · have hquoted := pattern.newline_not_mem_quoted setting.repertoire
            have hreason := newline_not_mem_reason i
            simp [Language.rejection, hquoted, hreason]
          · rw [Language.rejection, lines_message]
            simp [Text.mark, lines]

end Setting

/-! ### A reader that knows requests -/

/-- The operands of a request, behind `--` or without a hyphen. -/
def operands : List Text → Option (Text × Text)
  | [pattern, text] => if Unhyphenated pattern text then some (pattern, text) else none
  | [hyphens, pattern, text] => if hyphens = "--".toList then some (pattern, text) else none
  | _ => none

theorem operands_of_request (h : hyphens = false → Unhyphenated pattern text) :
    operands ((if hyphens then ["--".toList] else []) ++ [pattern, text]) =
      some (pattern, text) := by
  cases hyphens with
  | true => rfl
  | false => exact if_pos (h rfl)

/-- What a request asks for. -/
def ofRequest? : List Text → Option Invocation
  | command :: option :: rest =>
    if command ≠ "match".toList then none
    else if option = "--verbose".toList then
      (operands rest).map fun (pattern, text) => .decide true pattern text
    else (operands (option :: rest)).map fun (pattern, text) => .decide false pattern text
  | _ => none

/-- A reader that knows requests and nothing else; any other arguments are answered with the usage
text. -/
def requestReader : Reader := fun usage arguments =>
  match ofRequest? arguments with
  | some invocation => .ok invocation
  | none => .error ⟨1, [], usage⟩

theorem ofRequest?_verbose (rest : List Text) :
    ofRequest? ("match".toList :: "--verbose".toList :: rest) =
      (operands rest).map fun (pattern, text) => .decide true pattern text := by
  rw [ofRequest?, if_neg (not_not_intro rfl), if_pos rfl]

theorem ofRequest?_plain {first : Text} (h : first ≠ "--verbose".toList) (rest : List Text) :
    ofRequest? ("match".toList :: first :: rest) =
      (operands (first :: rest)).map fun (pattern, text) => .decide false pattern text := by
  rw [ofRequest?, if_neg (not_not_intro rfl), if_neg h]

theorem ofRequest?_request (h : hyphens = false → Unhyphenated pattern text) :
    ofRequest? (request verbose hyphens pattern text) = some (.decide verbose pattern text) := by
  have hoperands := operands_of_request h
  cases verbose with
  | true => exact (ofRequest?_verbose _).trans (congrArg _ hoperands)
  | false =>
      -- what stands behind the command is not taken for the option
      cases hyphens with
      | true =>
          have hhyphens : "--".toList ≠ "--verbose".toList := by decide
          exact (ofRequest?_plain hhyphens _).trans (congrArg _ hoperands)
      | false =>
          have hpattern : pattern ≠ "--verbose".toList := fun hp => (h rfl).1 (hp ▸ rfl)
          exact (ofRequest?_plain hpattern _).trans (congrArg _ hoperands)

theorem bindsOperands_requestReader : BindsOperands requestReader := by
  intro verbose hyphens pattern text h
  simp only [requestReader, ofRequest?_request h]

/-- A pattern text with a doubled marker, asked for without `--`: the caret is under the second
marker.  One that can be read and starts with a hyphen, asked for behind `--`: the record is made
under the name of the component. -/
theorem respond_to_doubled_marker :
    ∃ setting, setting = Setting.mk "regex_lite.__main__".toList .printable requestReader
        (fun _ => ⟨0, [], []⟩) ∧
      BindsOperands setting.reader ∧ Unhyphenated "a**".toList [] ∧
      (∃ outcome,
        setting.respond ("regex_lite".toList :: request true false "a**".toList []) = .ok outcome ∧
        outcome.status = 1 ∧ outcome.stdout = "false\n".toList ∧
        outcome.stderr =
          ("* is preceded by another *\n" ++ "a**\n" ++ "  ^\n" ++
            "DEBUG:regex_lite.parser:rejected pattern 'a**': " ++
            "* is preceded by another *\n").toList) ∧
      ∃ outcome,
        setting.respond ("regex_lite".toList :: request true true "-.*".toList "-x".toList) =
          .ok outcome ∧
        outcome.status = 0 ∧ outcome.stdout = "true\n".toList ∧
        outcome.stderr = "DEBUG:regex_lite.__main__:parsed pattern -.*\n".toList := by
  have hplain : Unhyphenated "a**".toList [] := by decide
  have hbinds := bindsOperands_requestReader
  refine ⟨_, rfl, hbinds, hplain, ?_, ?_⟩
  · obtain ⟨matched, hd, hrespond⟩ := Setting.respond_to_request
      ⟨"regex_lite.__main__".toList, .printable, requestReader, fun _ => ⟨0, [], []⟩⟩ hbinds
      "a**".toList []
    obtain rfl : false = matched := Except.ok.inj hd
    obtain ⟨outcome, houtcome, hstatus, hstdout, -, hverbose⟩ :=
      hrespond "regex_lite".toList true false fun _ => hplain
    obtain ⟨i, record, hi, rfl, -, hstderr⟩ :=
      (hverbose rfl).2 (Language.standard.rejection "a**".toList 2) rfl
    obtain rfl : 2 = i := Except.error.inj (Language.read_eq_error_iff.2 hi)
    exact ⟨outcome, houtcome, hstatus, hstdout, hstderr.trans (by decide +kernel)⟩
  · obtain ⟨matched, hd, hrespond⟩ := Setting.respond_to_request
      ⟨"regex_lite.__main__".toList, .printable, requestReader, fun _ => ⟨0, [], []⟩⟩ hbinds
      "-.*".toList "-x".toList
    obtain rfl : true = matched := Except.ok.inj hd
    obtain ⟨outcome, houtcome, hstatus, hstdout, -, hverbose⟩ :=
      hrespond "regex_lite".toList true true (by simp)
    obtain ⟨-, hstderr⟩ := (hverbose rfl).1 ⟨[.literal '-' false, .wildcard true]⟩ rfl
    exact ⟨outcome, houtcome, hstatus, hstdout, hstderr.trans (by decide +kernel)⟩

end CommandLine

end StarPattern
