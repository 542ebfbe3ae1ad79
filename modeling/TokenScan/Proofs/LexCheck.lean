import TokenScan.Proofs.FaultPlace
import TokenScan.Proofs.Outcome
import TokenScan.Proofs.WordKind

namespace TokenScan

open Text (byteLength)

namespace Task

section
variable (colored : Bool) (path source : String)

theorem scan_lex_fst :
    (lex.scan path source).1 = some (Listing.text path (scanOf source).tokens) := rfl

theorem scan_check_eq :
    (check.scan path source).1 =
        (Scan.verdict (fun ts => "OK: " ++ toString ts.length ++ " tokens\n")
          (scanOf source)).toOption ∧
      (check.scan path source).2.1 = (scanOf source).error := by
  have hcount : (Scanner.start source).count.1 = Scan.verdict List.length (scanOf source) :=
    countOf_eq source
  unfold scan
  generalize (Scanner.start source).count = c at hcount
  obtain ⟨r, s⟩ := c
  obtain rfl : r = _ := hcount
  cases herror : (scanOf source).error with
  | none =>
    rw [Scan.verdict_of_none _ herror, Scan.verdict_of_none _ herror]
    exact ⟨rfl, rfl⟩
  | some e =>
    rw [Scan.verdict_of_some _ herror, Scan.verdict_of_some _ herror]
    exact ⟨rfl, rfl⟩

theorem scan_error (t : Task) : (t.scan path source).2.1 = (scanOf source).error := by
  cases t with
  | lex => rfl
  | check => exact (scan_check_eq path source).2

/-- The log of a task: the record of its own, and what the scan tells. -/
def logs (t : Task) : List LogRecord :=
  t.record path source :: (t.scan path source).2.2.map ScanEvent.record

theorem conclusion_writes (error : Option ScanError) :
    ∀ w ∈ (conclusion colored path source error).1, w.isLog = false ∧ w.outText = "" := by
  cases error with
  | none => nofun
  | some e =>
    rw [conclusion]
    cases Diagnostic.report? colored path source [e] with
    | none => exact List.forall_mem_singleton.2 ⟨rfl, rfl⟩
    | some report => exact List.forall_mem_singleton.2 ⟨rfl, rfl⟩

/-- What a task writes behind its log. -/
def result (t : Task) : Run :=
  let (last, code) := conclusion colored path source (scanOf source).error
  ⟨((t.scan path source).1.map Write.out).toList ++ last, code⟩

theorem run_eq (t : Task) :
    t.run colored path source = ⟨(t.logs path source).map .log ++
      (t.result colored path source).writes, (t.result colored path source).code⟩ := by
  rw [logs, List.map_cons, List.map_map, result, ← scan_error path source t, ← List.append_assoc]
  rfl

theorem isLog_of_mem_result {t : Task} {w : Write}
    (h : w ∈ (t.result colored path source).writes) : w.isLog = false := by
  obtain h | h := List.mem_append.1 h
  · obtain ⟨s, -, rfl⟩ := Option.map_eq_some_iff.1 (Option.mem_toList.1 h)
    rfl
  · exact (conclusion_writes colored path source _ w h).1

theorem outcome_run {last : List Write} {code : Nat}
    (h : conclusion colored path source (scanOf source).error = (last, code)) (t : Task) :
    (t.run colored path source).outcome none =
      { Run.outcome none ⟨last, code⟩ with stdout := (t.scan path source).1.getD "" } := by
  have hlast := conclusion_writes colored path source (scanOf source).error
  rw [h] at hlast
  rw [run_eq, Run.outcome_logs none _ fun _ => isLog_of_mem_result colored path source,
    Run.shown_none_logs, String.empty_append, result, h]
  exact Run.outcome_output (r := ⟨last, code⟩) _ fun w hw => (hlast w hw).2

end

end Task

/-- The arguments name a file that holds the text `source`. -/
structure Opens (read : String → Except ReadError String) (args : List String) (o : Options)
    (path source : String) : Prop where
  options_eq : Options.read args = .ok o
  path_eq : o.path = some path
  read_eq : read path = .ok source

/-- How the arguments of a command are read, and the file that they name. -/
inductive Reading (read : String → Except ReadError String) (args : List String) : Prop
  | refused (r : Refusal) (hargs : Options.read args = .error r)
  | pathless (o : Options) (hargs : Options.read args = .ok o) (hpath : o.path = none)
  | unread (o : Options) (path : String) (e : ReadError) (hargs : Options.read args = .ok o)
      (hpath : o.path = some path) (hread : read path = .error e)
  | text (o : Options) (path source : String) (h : Opens read args o path source)

theorem reading (read : String → Except ReadError String) (args : List String) :
    Reading read args := by
  cases hargs : Options.read args with
  | error r => exact .refused r hargs
  | ok o =>
    cases hpath : o.path with
    | none => exact .pathless o hargs hpath
    | some path =>
      cases hread : read path with
      | error e => exact .unread o path e hargs hpath hread
      | ok source => exact .text o path source ⟨hargs, hpath, hread⟩

/-- No file is read: a color that does not exist, no path, or an error for the path. -/
def Unread (read : String → Except ReadError String) (args : List String) : Prop :=
  (∃ r, Options.read args = .error r) ∨
  ∃ o, Options.read args = .ok o ∧
    (o.path = none ∨ ∃ path e, o.path = some path ∧ read path = .error e)

namespace Task

variable (read : String → Except ReadError String) (terminal : Bool) (args : List String)

def invoke (t : Task) : Run := (Command.parse (t.name :: args)).run read terminal

theorem invoke_eq (t : Task) :
    t.invoke read terminal args = (Command.file t (Options.read args)).run read terminal := by
  cases t <;> rfl

variable {read args}

theorem invoke_refused {r : Refusal} (hargs : Options.read args = .error r) (t : Task) :
    t.invoke read terminal args = ⟨Command.warnings r.ignored ++
      [.err ("error: invalid --color value '" ++ r.value ++ "'\n"),
        .err "Expected one of: auto, always, never\n"], 1⟩ := by
  rw [invoke_eq, hargs, Command.run]

section

variable {o : Options} (hargs : Options.read args = .ok o)
include hargs

theorem invoke_pathless (hpath : o.path = none) (t : Task) :
    t.invoke read terminal args = ⟨Command.warnings o.ignored ++
      [.err "error: missing file path\n",
        .err ("Usage: mathlang " ++ t.name ++ " <file> [--color=auto|always|never]\n")], 1⟩ := by
  rw [invoke_eq, hargs, Command.run, hpath]

variable {path source : String} (hpath : o.path = some path)
include hpath

theorem invoke_unread {e : ReadError} (hread : read path = .error e) (t : Task) :
    t.invoke read terminal args =
      ⟨Command.warnings o.ignored ++ [.err (e.message path ++ "\n")], 1⟩ := by
  rw [invoke_eq, hargs, Command.run, hpath]
  dsimp only
  rw [hread]

end

theorem invoke_text {o : Options} {path source : String} (h : Opens read args o path source)
    (t : Task) :
    t.invoke read terminal args = ⟨Command.warnings o.ignored ++
      (t.run (o.color.enabled terminal) path source).writes,
      (t.run (o.color.enabled terminal) path source).code⟩ := by
  rw [invoke_eq, h.options_eq, Command.run, h.path_eq]
  dsimp only
  rw [h.read_eq]

variable (read args)

def outcome (logging : Option Logging) (t : Task) : Outcome :=
  (t.invoke read terminal args).outcome logging

variable {read args} (logging : Option Logging)

theorem outcome_refused {r : Refusal} (hargs : Options.read args = .error r) (t : Task) :
    t.outcome read terminal args logging = ⟨"", Command.warningText r.ignored ++
      String.join ["error: invalid --color value '" ++ r.value ++ "'\n",
        "Expected one of: auto, always, never\n"], 1, false⟩ := by
  rw [outcome, invoke_refused terminal hargs]
  exact Command.outcome_errors logging r.ignored [_, _] 1

theorem outcome_pathless {o : Options} (hargs : Options.read args = .ok o) (hpath : o.path = none)
    (t : Task) :
    t.outcome read terminal args logging = ⟨"", Command.warningText o.ignored ++
      String.join ["error: missing file path\n",
        "Usage: mathlang " ++ t.name ++ " <file> [--color=auto|always|never]\n"], 1, false⟩ := by
  rw [outcome, invoke_pathless terminal hargs hpath]
  exact Command.outcome_errors logging o.ignored [_, _] 1

theorem outcome_unread {o : Options} {path : String} {e : ReadError}
    (hargs : Options.read args = .ok o) (hpath : o.path = some path) (hread : read path = .error e)
    (t : Task) :
    t.outcome read terminal args logging =
      ⟨"", Command.warningText o.ignored ++ String.join [e.message path ++ "\n"], 1, false⟩ := by
  rw [outcome, invoke_unread terminal hargs hpath hread]
  exact Command.outcome_errors logging o.ignored [_] 1

section
variable {o : Options} {path source : String} (h : Opens read args o path source)
include h

theorem outcome_text {last : List Write} {code : Nat}
    (hlast : conclusion (o.color.enabled terminal) path source (scanOf source).error = (last, code))
    (t : Task) :
    t.outcome read terminal args none =
      ⟨(t.scan path source).1.getD "",
        Command.warningText o.ignored ++ String.join (last.map Write.errText), code,
        last.contains .panic⟩ := by
  have hrun := outcome_run _ path source hlast t
  rw [outcome, invoke_text terminal h, Command.outcome_warnings, hrun]
  rw [← Run.stderr_eq ⟨last, code⟩]
  exact congrArg (fun s => Outcome.mk _ (_ ++ s) code _) (congrArg Outcome.stderr hrun)

end

end Task

namespace Diagnostic

variable (colored : Bool) (path : String) {source : String} {e : ScanError}

theorem isSome_report? {marked : List Char}
    (h : Text.slice? source.toList e.span.start e.span.stop = some marked) :
    (report? colored path source [e]).isSome = true := by
  obtain ⟨before, rest, hs, hstart, hstop⟩ := Text.slice?_eq_some_iff.1 h
  rw [List.append_assoc] at hs
  have hline := isLine_append before (marked ++ rest)
  have hbefore : before.rdropWhile (· ≠ '\n') ++ before.rtakeWhile (· ≠ '\n') = before :=
    List.rdropWhile_append_rtakeWhile
  have hspan : e.span = ⟨byteLength before, byteLength before + byteLength marked⟩ := by
    rw [hstop, hstart]
  rw [← hs] at hline
  rw [← hbefore] at hspan
  rw [report?_singleton, ofError?_of_isLine path hline List.takeWhile_append_dropWhile hspan]
  rfl

/-- The error of a scan has a diagnostic, unless its place in a long source had to be lowered and is
inside a character now. -/
theorem of_report?_eq_none (herror : (scanOf source).error = some e)
    (h : report? colored path source [e] = none) :
    maxOffset < source.utf8ByteSize ∧
      Text.slice? source.toList e.span.start e.span.stop = none := by
  have hslice : Text.slice? source.toList e.span.start e.span.stop = none := by
    by_contra hne
    obtain ⟨marked, hmarked⟩ := Option.ne_none_iff_exists'.1 hne
    have hsome := isSome_report? colored path hmarked
    rw [h] at hsome
    cases hsome
  refine ⟨?_, hslice⟩
  by_contra hsize
  obtain ⟨before, text, rest, hs, -, -, hspan⟩ := exists_of_scanOf_error (not_lt.1 hsize) herror
  rw [hspan, Text.slice?_eq_some_iff.2 ⟨before, rest, by rw [hs, List.append_assoc], rfl, rfl⟩]
    at hslice
  cases hslice

end Diagnostic

theorem results_of_scanOf_error {source : String} {e : ScanError}
    (herror : (scanOf source).error = some e) :
    ∃ more, (Scanner.start source).results =
      (scanOf source).tokens.map .ok ++ .error e :: more := by
  rw [scanOf_eq] at herror
  obtain ⟨before, more, hresults⟩ := Scan.exists_of_error herror
  have htokens : (scanOf source).tokens = before := by
    rw [scanOf_eq, hresults, Scan.ofResults_append]
    exact List.append_nil before
  exact ⟨more, by rw [htokens, hresults]⟩

theorem error_of_tokensOf {source : String} {e : ScanError} (h : tokensOf source = .error e) :
    (scanOf source).error = some e :=
  Scan.error_of_verdict ((tokensOf_eq source).symm.trans h)

theorem error_of_tokensOf_ok {source : String} {ts : List Token} (h : tokensOf source = .ok ts) :
    (scanOf source).error = none ∧ ts = (scanOf source).tokens.map LocatedToken.token :=
  Scan.of_verdict_eq_ok ((tokensOf_eq source).symm.trans h)

namespace Task

variable (terminal : Bool) {read : String → Except ReadError String} {args : List String}
  {o : Options} {path source : String} (h : Opens read args o path source)
include h

theorem outcome_passed {ts : List Token} (hts : tokensOf source = .ok ts) (t : Task) :
    t.outcome read terminal args none =
      ⟨(t.scan path source).1.getD "", Command.warningText o.ignored, 0, false⟩ := by
  have hlast :
      conclusion (o.color.enabled terminal) path source (scanOf source).error = ([], 0) := by
    rw [(error_of_tokensOf_ok hts).1]
    rfl
  rw [outcome_text terminal h hlast]
  exact congrArg (Outcome.mk _ · 0 _) String.append_empty

variable {e : ScanError} (he : tokensOf source = .error e)
include he

theorem outcome_reported {report : String}
    (hreport : Diagnostic.report? (o.color.enabled terminal) path source [e] = some report)
    (t : Task) :
    t.outcome read terminal args none =
      ⟨(t.scan path source).1.getD "", Command.warningText o.ignored ++ report, 1, false⟩ := by
  have hlast : conclusion (o.color.enabled terminal) path source (scanOf source).error =
      ([.err report], 1) := by
    rw [error_of_tokensOf he, conclusion, hreport]
  rw [outcome_text terminal h hlast, List.map_singleton, String.join_cons, String.join_nil,
    String.append_empty]
  rfl

theorem outcome_panicked
    (hreport : Diagnostic.report? (o.color.enabled terminal) path source [e] = none) (t : Task) :
    t.outcome read terminal args none =
      ⟨(t.scan path source).1.getD "", Command.warningText o.ignored, Run.panicCode, true⟩ := by
  have hlast : conclusion (o.color.enabled terminal) path source (scanOf source).error =
      ([.panic], Run.panicCode) := by
    rw [error_of_tokensOf he, conclusion, hreport]
  rw [outcome_text terminal h hlast]
  exact congrArg (Outcome.mk _ · Run.panicCode _) String.append_empty

end Task

section
variable (n : Nat)

theorem Lexeme.leading_replicate :
    leading (List.replicate (n + 1) 'é') = List.replicate (n + 1) 'é' := by
  have hrun : (List.replicate n 'é').takeWhile Word.goesOn = List.replicate n 'é' :=
    List.takeWhile_eq_self_iff.2 fun c hc => by
      obtain rfl := List.eq_of_mem_replicate hc
      decide
  rw [List.replicate_succ, leading_of_word (by decide) (by decide), Word.leading,
    if_neg (by decide), hrun]

theorem Lexeme.meaning_replicate :
    meaning (List.replicate (n + 1) 'é') =
      .error (.invalidWord (String.ofList (List.replicate (n + 1) 'é'))) := by
  have hleads := leading_replicate n
  rw [List.replicate_succ] at hleads ⊢
  rw [leading_of_word (by decide) (by decide)] at hleads
  have hdigits := Word.digitsLead_leading 'é' (List.replicate n 'é')
  rw [hleads] at hdigits
  have hclass : Word.classify? ('é' :: List.replicate n 'é') = none := by
    refine (Word.classify?_eq_none_iff hdigits).2 ⟨fun hplain => ?_, fun c hc hw => ?_, rfl⟩
    · obtain ⟨c, cs, hw, hc⟩ := Word.exists_head_of_isPlain hplain
      obtain ⟨rfl, -⟩ := List.cons.inj hw
      exact absurd hc (by decide)
    · obtain ⟨rfl, -⟩ := List.cons.inj hw
      exact absurd hc (by decide)
  rw [meaning_of_word (by decide) (by decide), hclass]

theorem byteLength_replicate : byteLength (List.replicate n 'é') = 2 * n := by
  induction n with
  | zero => rfl
  | succ n ih =>
    rw [List.replicate_succ, Text.byteLength_cons, ih, Nat.mul_succ, Nat.add_comm]
    rfl

theorem scanOf_replicate :
    let source := String.ofList (List.replicate (n + 1) 'é')
    scanOf source = ⟨[], some ⟨.invalidWord source, .clamp 0 (2 * (n + 1))⟩⟩ := by
  intro source
  have hs : source.toList = List.replicate (n + 1) 'é' := String.toList_ofList
  have hsplit : Split source.toList [] (List.replicate (n + 1) 'é') [] := by
    refine ⟨by rw [hs, List.append_nil, List.nil_append], nofun, ⟨'é', rfl, by decide⟩, ?_⟩
    rw [List.append_nil, Lexeme.leading_replicate]
  have hlexes := Lexes.lexeme (n := 0) hsplit (.blank nofun)
  rw [Lexeme.meaning_replicate, byteLength_replicate, Text.byteLength_nil, Nat.zero_add,
    Nat.zero_add] at hlexes
  rw [scanOf_of_lexes hlexes]
  rfl

theorem not_isValid_replicate {i : Nat} (hi : ¬ 2 ∣ i) :
    ¬ (String.Pos.Raw.mk i).IsValid (String.ofList (List.replicate n 'é')) := by
  rw [Text.isValid_iff, String.toList_ofList]
  rintro ⟨before, after, hs, rfl⟩
  obtain ⟨-, hbefore, -⟩ := List.replicate_eq_append_iff.1 hs
  exact hi ⟨before.length, by rw [← byteLength_replicate, ← hbefore]⟩

/-- Past `maxOffset` the error has a place that ends inside a letter, so it has no diagnostic. -/
theorem Diagnostic.report?_replicate (hn : maxOffset ≤ 2 * n) (colored : Bool) (path : String) :
    let source := String.ofList (List.replicate n 'é')
    report? colored path source [⟨.invalidWord source, .clamp 0 (2 * n)⟩] = none := by
  intro source
  have hsize : source.utf8ByteSize = 2 * n := by
    rw [← Text.byteLength_toList, String.toList_ofList, byteLength_replicate]
  refine ((report?_shape path source _).1 colored).2 (.inr ?_)
  have hstop : ((Span.clamp 0 (2 * n)).within source.utf8ByteSize).stop = maxOffset := by
    rw [Span.within, Span.clamp, hsize, min_eq_right hn, min_eq_left hn]
    simp
  rw [hstop]
  exact not_isValid_replicate n (by decide)

end

/-- Only what is written for the command itself tells one from another. -/
theorem Task.outcome_agree (read : String → Except ReadError String) (terminal : Bool)
    (args : List String) (t u : Task) :
    (t.outcome read terminal args none).code = (u.outcome read terminal args none).code ∧
      (t.outcome read terminal args none).panics = (u.outcome read terminal args none).panics ∧
      ((∀ o, Options.read args = .ok o → o.path ≠ none) →
        (t.outcome read terminal args none).stderr =
          (u.outcome read terminal args none).stderr) := by
  cases reading read args with
  | refused r hargs =>
    rw [outcome_refused terminal _ hargs, outcome_refused terminal _ hargs]
    exact ⟨rfl, rfl, fun _ => rfl⟩
  | pathless o hargs hpath =>
    rw [outcome_pathless terminal _ hargs hpath, outcome_pathless terminal _ hargs hpath]
    exact ⟨rfl, rfl, fun h => absurd hpath (h o hargs)⟩
  | unread o path e hargs hpath hread =>
    rw [outcome_unread terminal _ hargs hpath hread, outcome_unread terminal _ hargs hpath hread]
    exact ⟨rfl, rfl, fun _ => rfl⟩
  | text o path source h =>
    rw [outcome_text terminal h rfl, outcome_text terminal h rfl]
    exact ⟨rfl, rfl, fun _ => rfl⟩

/-- The commands `lex` and `check` on the same arguments. -/
structure LexCheckAgree (read : String → Except ReadError String) (terminal : Bool)
    (args : List String) : Prop where
  code : (Task.lex.outcome read terminal args none).code =
    (Task.check.outcome read terminal args none).code
  panics : (Task.lex.outcome read terminal args none).panics =
    (Task.check.outcome read terminal args none).panics
  stderr (h : ∀ o, Options.read args = .ok o → o.path ≠ none) :
    (Task.lex.outcome read terminal args none).stderr =
      (Task.check.outcome read terminal args none).stderr
  usage {o : Options} (hargs : Options.read args = .ok o) (hpath : o.path = none) (t : Task) :
    (t.outcome read terminal args none).stderr = Command.warningText o.ignored ++
      String.join ["error: missing file path\n",
        "Usage: mathlang " ++ t.name ++ " <file> [--color=auto|always|never]\n"]
  unread (h : Unread read args) (t : Task) :
    (t.outcome read terminal args none).code = 1 ∧ (t.outcome read terminal args none).stdout = ""
  code_eq_zero_iff {o : Options} {path source : String} (h : Opens read args o path source)
      (t : Task) :
    (t.outcome read terminal args none).code = 0 ↔ ∃ ts, tokensOf source = .ok ts
  passed {o : Options} {path source : String} (h : Opens read args o path source) {ts : List Token}
      (hts : tokensOf source = .ok ts) :
    Task.check.outcome read terminal args none =
        ⟨"OK: " ++ toString ts.length ++ " tokens\n", Command.warningText o.ignored, 0, false⟩ ∧
      ∃ located, locatedTokensOf source = .ok located ∧ located.map LocatedToken.token = ts ∧
        Task.lex.outcome read terminal args none =
          ⟨Listing.heading path ts.length ++ String.join (located.map Listing.line),
            Command.warningText o.ignored, 0, false⟩
  failed {o : Options} {path source : String} (h : Opens read args o path source) {e : ScanError}
      (he : tokensOf source = .error e) :
    (Task.check.outcome read terminal args none).stdout = "" ∧
      ∃ before more, (Scanner.start source).results = before.map .ok ++ .error e :: more ∧
        (Task.lex.outcome read terminal args none).stdout = Listing.text path before
  reported {o : Options} {path source : String} (h : Opens read args o path source) {e : ScanError}
      (he : tokensOf source = .error e) {report : String}
      (hreport : Diagnostic.report? (o.color.enabled terminal) path source [e] = some report)
      (t : Task) :
    (t.outcome read terminal args none).stderr = Command.warningText o.ignored ++ report ∧
      (t.outcome read terminal args none).code = 1 ∧
      (t.outcome read terminal args none).panics = false
  panicked {o : Options} {path source : String} (h : Opens read args o path source) {e : ScanError}
      (he : tokensOf source = .error e)
      (hreport : Diagnostic.report? (o.color.enabled terminal) path source [e] = none) (t : Task) :
    (t.outcome read terminal args none).stderr = Command.warningText o.ignored ∧
      (t.outcome read terminal args none).code = Run.panicCode ∧
      (t.outcome read terminal args none).panics = true
  /-- A source with all its offsets in a span never gets there. -/
  cut {source : String} {e : ScanError} (he : tokensOf source = .error e) {colored : Bool}
      {path : String} (hreport : Diagnostic.report? colored path source [e] = none) :
    maxOffset < source.utf8ByteSize ∧ Text.slice? source.toList e.span.start e.span.stop = none

/-- The commands end with the same code and say the same, but for the line that names the command
when there is no path. If a file is read, both tell from one scan whether it has an error, and show
it; where an error cannot be shown, since its place in a long source had to be lowered and is inside
a character now, both panic. -/
theorem lex_check_agree (read : String → Except ReadError String) (terminal : Bool)
    (args : List String) : LexCheckAgree read terminal args where
  code := (Task.outcome_agree read terminal args _ _).1
  panics := (Task.outcome_agree read terminal args _ _).2.1
  stderr := (Task.outcome_agree read terminal args _ _).2.2
  usage hargs hpath t := by rw [Task.outcome_pathless terminal _ hargs hpath]
  unread h t := by
    obtain ⟨r, hargs⟩ | ⟨o, hargs, hpath | ⟨path, e, hpath, hread⟩⟩ := h
    · rw [Task.outcome_refused terminal _ hargs]
      exact ⟨rfl, rfl⟩
    · rw [Task.outcome_pathless terminal _ hargs hpath]
      exact ⟨rfl, rfl⟩
    · rw [Task.outcome_unread terminal _ hargs hpath hread]
      exact ⟨rfl, rfl⟩
  code_eq_zero_iff {o path source} h t := by
    cases htokens : tokensOf source with
    | ok ts =>
      rw [Task.outcome_passed terminal h htokens]
      exact iff_of_true rfl ⟨ts, rfl⟩
    | error e =>
      refine iff_of_false (fun hcode => ?_) nofun
      cases hreport : Diagnostic.report? (o.color.enabled terminal) path source [e] with
      | some report =>
        rw [Task.outcome_reported terminal h htokens hreport] at hcode
        cases hcode
      | none =>
        rw [Task.outcome_panicked terminal h htokens hreport] at hcode
        cases hcode
  passed {o path source} h ts hts := by
    obtain ⟨herror, rfl⟩ := error_of_tokensOf_ok hts
    rw [Task.outcome_passed terminal h hts, Task.outcome_passed terminal h hts,
      (Task.scan_check_eq path source).1, Scan.verdict_of_none _ herror, List.length_map]
    exact ⟨rfl, _, (locatedTokensOf_eq source).trans (Scan.verdict_of_none id herror), rfl, rfl⟩
  failed {o path source} h e he := by
    have herror := error_of_tokensOf he
    obtain ⟨more, hresults⟩ := results_of_scanOf_error herror
    rw [Task.outcome_text terminal h rfl, Task.outcome_text terminal h rfl,
      (Task.scan_check_eq path source).1, Scan.verdict_of_some _ herror]
    exact ⟨rfl, _, more, hresults, rfl⟩
  reported h e he report hreport t := by
    rw [Task.outcome_reported terminal h he hreport]
    exact ⟨rfl, rfl, rfl⟩
  panicked h e he hreport t := by
    rw [Task.outcome_panicked terminal h he hreport]
    exact ⟨rfl, rfl, rfl⟩
  cut he colored path hreport :=
    Diagnostic.of_report?_eq_none colored path (error_of_tokensOf he) hreport

/-- A file with a fault, one without, and a path that is missing. -/
theorem lex_check_agree_files :
    let read : String → Except ReadError String := fun path =>
      if path = "f" then .ok "x #\ny" else if path = "g" then .ok "x=5" else .error .missing
    let e : ScanError := ⟨.invalidWord "#", ⟨2, 3⟩⟩
    let out (t : Task) (args : List String) := t.outcome read false args none
    (Opens read ["-z", "f"] ⟨.auto, some "f", ["-z"]⟩ "f" "x #\ny" ∧
      tokensOf "x #\ny" = .error e ∧
      (out .lex ["-z", "f"]).stderr = (out .check ["-z", "f"]).stderr ∧
      (out .check ["-z", "f"]).stdout = "" ∧ (out .check ["-z", "f"]).code ≠ 0 ∧
      Diagnostic.report? false "f" "x #\ny" [e] ≠ none) ∧
    (tokensOf "x=5" = .ok [.name "x", .symbol '=', .number ⟨0x4014000000000000⟩] ∧
      out .check ["g"] = ⟨"OK: 3 tokens\n", "", 0, false⟩) ∧
    Options.read ["--color=never"] = .ok ⟨.never, none, []⟩ ∧ Unread read ["--color=never"] ∧
      (out .check ["--color=never"]).code = 1 ∧
      (out .check ["--color=never"]).stderr = "error: missing file path\n" ++
        ("Usage: mathlang " ++ "check" ++ " <file> [--color=auto|always|never]\n") := by
  intro read e out
  have hf : Opens read ["-z", "f"] ⟨.auto, some "f", ["-z"]⟩ "f" "x #\ny" :=
    ⟨by decide +kernel, rfl, rfl⟩
  have hfault : tokensOf "x #\ny" = .error e := by decide +kernel
  have hg : Opens read ["g"] ⟨.auto, some "g", []⟩ "g" "x=5" := ⟨by decide +kernel, rfl, rfl⟩
  have htokens : tokensOf "x=5" = .ok [.name "x", .symbol '=', .number ⟨0x4014000000000000⟩] := by
    decide +kernel
  have hnone : Options.read ["--color=never"] = .ok ⟨.never, none, []⟩ := by decide +kernel
  have hunread : Unread read ["--color=never"] := .inr ⟨_, hnone, .inl rfl⟩
  have hpath : ∀ o, Options.read ["-z", "f"] = .ok o → o.path ≠ none := by
    intro o ho
    obtain rfl := Except.ok.inj (hf.options_eq.symm.trans ho)
    nofun
  have agree (args : List String) := lex_check_agree read false args
  have hcode : (out .check ["-z", "f"]).code ≠ 0 := by
    rw [Ne, (agree _).code_eq_zero_iff hf, hfault]
    nofun
  have hshown : Diagnostic.report? false "f" "x #\ny" [e] ≠ none := fun h =>
    absurd ((agree []).cut hfault h).1 (by decide)
  exact ⟨⟨hf, hfault, (agree _).stderr hpath, ((agree _).failed hf hfault).1, hcode, hshown⟩,
    ⟨htokens, ((agree _).passed hg htokens).1⟩, hnone, hunread, ((agree _).unread hunread .check).1,
    (agree _).usage hnone rfl .check⟩

/-- A file of 4 GiB that is one word. Its last letter is cut at `maxOffset`, and the error of the
word is not shown. -/
theorem lex_check_agree_cut_letter :
    let source := String.ofList (List.replicate 0x80000000 'é')
    let read : String → Except ReadError String := fun _ => .ok source
    let e : ScanError := ⟨.invalidWord source, ⟨0, maxOffset⟩⟩
    Opens read ["f"] ⟨.auto, some "f", []⟩ "f" source ∧ tokensOf source = .error e ∧
      (∀ colored, Diagnostic.report? colored "f" source [e] = none) ∧
      Task.check.outcome read false ["f"] none = ⟨"", "", 101, true⟩ ∧
      Task.lex.outcome read false ["f"] none = ⟨Listing.text "f" [], "", 101, true⟩ := by
  obtain ⟨n, hn⟩ : ∃ n, 0x80000000 = n + 1 := ⟨0x7FFFFFFF, rfl⟩
  rw [hn]
  intro source read e
  have hlong : maxOffset ≤ 2 * (n + 1) := by rw [← hn]; decide
  have hclamp : Span.clamp 0 (2 * (n + 1)) = ⟨0, maxOffset⟩ := by
    rw [Span.clamp, min_eq_right hlong, Nat.zero_min]
  have hscan := scanOf_replicate n
  rw [hclamp] at hscan
  have htokens : tokensOf source = .error e := by
    rw [tokensOf_eq, hscan]
    rfl
  have hopens : Opens read ["f"] ⟨.auto, some "f", []⟩ "f" source :=
    ⟨by decide +kernel, rfl, rfl⟩
  have hreport (colored : Bool) : Diagnostic.report? colored "f" source [e] = none := by
    have hnone := Diagnostic.report?_replicate (n + 1) hlong colored "f"
    rwa [hclamp] at hnone
  refine ⟨hopens, htokens, hreport, ?_, ?_⟩
  · rw [Task.outcome_panicked false hopens htokens (hreport _), (Task.scan_check_eq "f" source).1,
      hscan]
    rfl
  · rw [Task.outcome_panicked false hopens htokens (hreport _), Task.scan_lex_fst, hscan]
    rfl

end TokenScan
