import TokenScan.Proofs.LexCheck
import TokenScan.Proofs.Transcript

namespace TokenScan

/-- The crates whose modules log. -/
inductive Crate where
  | lexer
  | driver

def Crate.name : Crate → String
  | lexer => "mathlang_lexer"
  | driver => "mathlangc"

def crateOf (target : String) : String := String.ofList (target.toList.takeWhile (· ≠ ':'))

namespace LogRecord

/-- Nothing that a line shows of the record ends the line. -/
structure OneLine (r : LogRecord) : Prop where
  target : '\n' ∉ r.target.toList
  message : '\n' ∉ r.message.toList
  fields : ∀ p ∈ r.fields, '\n' ∉ p.1.toList ∧ '\n' ∉ p.2.show.toList

def targets : List String :=
  [scanTarget, "mathlangc::commands::debug", "mathlangc::commands::check"]

theorem isPrefixOf_target (c : Crate) : ∀ target ∈ targets,
    c.name.toList.isPrefixOf target.toList = decide (crateOf target = c.name) := by
  cases c <;> decide +kernel

theorem newline_not_mem_target : ∀ target ∈ targets, '\n' ∉ target.toList := by decide +kernel

end LogRecord

/-- What is documented of a subscriber: which records it lets through under a level, a crate, a
crate with a level, and nothing at all; and that it writes a record in one line. -/
structure Subscriber.Documented (s : Subscriber) : Prop where
  admits_off (r : LogRecord) : s.admits "off" r = false
  admits_empty (r : LogRecord) : s.admits "" r = decide (r.level.rank ≤ Level.error.rank)
  admits_level (l : Level) (r : LogRecord) : s.admits l.name r = decide (r.level.rank ≤ l.rank)
  admits_crate (c : Crate) (r : LogRecord) :
    s.admits c.name r = c.name.toList.isPrefixOf r.target.toList
  admits_crateLevel (c : Crate) (l : Level) (r : LogRecord) :
    s.admits (c.name ++ "=" ++ l.name) r =
      (c.name.toList.isPrefixOf r.target.toList && decide (r.level.rank ≤ l.rank))
  exists_line {stamp : String} (hstamp : '\n' ∉ stamp.toList) {r : LogRecord} (hr : r.OneLine) :
    ∃ text, s.line stamp r = text ++ "\n" ∧ '\n' ∉ text.toList

namespace LogRule

theorem passes_singleton (rule : LogRule) (r : LogRecord) :
    passes [rule] r = (concerns r rule && rule.level.any (r.level.rank ≤ ·.rank)) := by
  rw [passes, decisive?]
  cases h : concerns r rule <;> simp [h]

end LogRule

theorem Level.rank_le_trace (l : Level) : l.rank ≤ trace.rank := by
  cases l <;> decide

namespace Subscriber

theorem newline_not_mem_standard {stamp : String} (hstamp : '\n' ∉ stamp.toList) {r : LogRecord}
    (hr : r.OneLine) :
    ∃ text, standard.line stamp r = text ++ "\n" ∧ '\n' ∉ text.toList := by
  refine ⟨_, rfl, ?_⟩
  have hlabel : '\n' ∉ r.level.label.toList := by cases r.level <;> decide
  have hfields : ∀ p ∈ r.fields, '\n' ∉ (" " ++ p.1 ++ "=" ++ p.2.show).toList := fun p hp => by
    simp [(hr.fields p hp).1, (hr.fields p hp).2]
  simpa [hstamp, hlabel, hr.target, hr.message, String.toList_join] using hfields

theorem standard_admits {value : String} (rule : LogRule) (h : LogRule.parseAll value = [rule])
    (r : LogRecord) : standard.admits value r =
      (LogRule.concerns r rule && rule.level.any (r.level.rank ≤ ·.rank)) :=
  (congrArg (LogRule.passes · r) h).trans (LogRule.passes_singleton rule r)

theorem standard_documented : standard.Documented where
  admits_off := standard_admits ⟨"", none⟩ (by decide +kernel)
  admits_empty := standard_admits ⟨"", some .error⟩ (by decide +kernel)
  admits_level l := standard_admits ⟨"", some l⟩ (by cases l <;> decide +kernel)
  admits_crate c r := by
    have hparse : LogRule.parseAll c.name = [⟨c.name, some .trace⟩] := by
      cases c <;> decide +kernel
    rw [standard_admits _ hparse, Option.any_some, decide_eq_true r.level.rank_le_trace,
      Bool.and_true]
    rfl
  admits_crateLevel c l := standard_admits ⟨c.name, some l⟩
    (by cases c <;> cases l <;> decide +kernel)
  exists_line := newline_not_mem_standard

end Subscriber

/-- A value of the environment. -/
inductive LogSetting where
  | off
  | empty
  | level (l : Level)
  | crate (c : Crate)
  | crateLevel (c : Crate) (l : Level)

namespace LogSetting

def text : LogSetting → String
  | off => "off"
  | empty => ""
  | level l => l.name
  | crate c => c.name
  | crateLevel c l => c.name ++ "=" ++ l.name

/-- The records that the setting is for. -/
def covers (r : LogRecord) : LogSetting → Bool
  | off => false
  | empty => r.level.rank ≤ Level.error.rank
  | level l => r.level.rank ≤ l.rank
  | crate c => crateOf r.target = c.name
  | crateLevel c l => crateOf r.target = c.name && r.level.rank ≤ l.rank

theorem admits_eq_covers {s : Subscriber} (hs : s.Documented) {r : LogRecord}
    (hr : r.target ∈ LogRecord.targets) (setting : LogSetting) :
    s.admits setting.text r = setting.covers r := by
  cases setting with
  | off => exact hs.admits_off r
  | empty => exact hs.admits_empty r
  | level l => exact hs.admits_level l r
  | crate c => exact (hs.admits_crate c r).trans (LogRecord.isPrefixOf_target c _ hr)
  | crateLevel c l =>
    rw [text, hs.admits_crateLevel, LogRecord.isPrefixOf_target c _ hr]
    rfl

end LogSetting

namespace Logging

/-- What is let through of records counted from `n`, with stamps. -/
def admitted (l : Logging) (n : Nat) : List LogRecord → List (String × LogRecord)
  | [] => []
  | r :: rs =>
    if l.admits r then (l.stamps n, r) :: l.admitted (n + 1) rs else l.admitted (n + 1) rs

variable (l : Logging) (n : Nat) (rs : List LogRecord)

theorem shown_logs : Run.shown (some l) n (rs.map .log) =
    String.join ((l.admitted n rs).map fun b => l.subscriber.line b.1 b.2) := by
  induction rs generalizing n with
  | nil => rfl
  | cons r rs ih =>
    rw [List.map_cons, Run.shown, Run.recordText, admitted, ih]
    split
    · rw [List.map_cons, String.join_cons]
      rfl
    · exact String.empty_append

theorem map_snd_admitted : (l.admitted n rs).map Prod.snd = rs.filter l.admits := by
  induction rs generalizing n with
  | nil => rfl
  | cons r rs ih =>
    rw [admitted, List.filter_cons]
    split
    · rw [List.map_cons, ih]
    · exact ih _

theorem of_mem_admitted {b : String × LogRecord} (h : b ∈ l.admitted n rs) :
    (∃ k, b.1 = l.stamps k) ∧ b.2 ∈ rs := by
  have hrecord : b.2 ∈ rs := by
    have hb := List.mem_map_of_mem (f := Prod.snd) h
    rw [map_snd_admitted] at hb
    exact List.mem_of_mem_filter hb
  refine ⟨?_, hrecord⟩
  clear hrecord
  induction rs generalizing n with
  | nil => cases h
  | cons r rs ih =>
    rw [admitted] at h
    split at h
    · obtain rfl | h := List.mem_cons.1 h
      · exact ⟨n, rfl⟩
      · exact ih _ h
    · exact ih _ h

end Logging

theorem Run.outcome_of_no_log {r : Run} (h : ∀ w ∈ r.writes, w.isLog = false)
    (logging : Option Logging) : r.outcome logging = r.outcome none := by
  rw [outcome, outcome, stdout, stdout, shown_of_no_log h, shown_none]

theorem ScanError.newline_not_mem_message {e : ScanError}
    (h : ∀ w, e.fault = .invalidWord w → '\n' ∉ w.toList) : '\n' ∉ e.message.toList := by
  have hfault : '\n' ∉ e.fault.message.toList := by
    cases hf : e.fault with
    | unterminatedString => exact (by decide : '\n' ∉ "unterminated string literal".toList)
    | invalidWord w =>
      have hmessage : (Fault.invalidWord w).message = "invalid token `" ++ w ++ "`" := rfl
      rw [hmessage]
      simp [h w hf]
    | unexpectedEnd => exact (by decide : '\n' ∉ "unexpected end of input".toList)
  simp [message, hfault, Span.newline_not_mem_text]

/-- The errors of a scan show no word that has more than one line. -/
theorem Lexes.newline_not_mem_message {n : Nat} {cs : List Char}
    {rs : List (Except ScanError LocatedToken)} (h : Lexes n cs rs) {e : ScanError}
    (he : .error e ∈ rs) : '\n' ∉ e.message.toList := by
  induction h with
  | blank => cases he
  | @lexeme n cs gap text rest rs hsplit _ ih =>
    obtain he | he := List.mem_cons.1 he
    · have hleads : Split (text ++ rest) [] text rest := ⟨rfl, nofun, hsplit.solid, hsplit.leads⟩
      have hm : Lexeme.meaning text = .error e.fault :=
        Lexeme.located_eq_error_iff.1 ⟨e.span, congrArg (Except.map some) he.symm⟩
      refine ScanError.newline_not_mem_message fun w hw => ?_
      rw [hw] at hm
      obtain ⟨-, -, -, -, -, rfl, -⟩ := Lexeme.exists_of_invalidWord hm
      rw [String.toList_ofList]
      exact fun h => absurd (Lexeme.not_blank_of_invalidWord hleads hm _ h) (by decide)
    · exact ih he

namespace Task

theorem scan_events (path source : String) (t : Task) :
    (t.scan path source).2.2 = transcriptOf source := by
  have hevents : (Scanner.start source).events = transcriptOf source := by
    rw [transcriptOf, TokenSource.readAll, Scanner.log_readOnto]
    rfl
  cases t with
  | lex => exact (Scanner.log_keepOnto #[] (Scanner.start source)).trans hevents
  | check =>
    have hlog := Scanner.log_countFrom 0 (s := Scanner.start source) rfl
    rw [← hevents, scan, Scanner.count]
    split <;> (next h => rw [h] at hlog; exact hlog)

theorem logs_eq (path source : String) (t : Task) :
    t.logs path source = t.record path source :: (transcriptOf source).map ScanEvent.record := by
  rw [logs, scan_events]

/-- What is logged is a block ahead of the output of the task. -/
theorem outcome_logged (l : Logging) (colored : Bool) (path source : String) (t : Task) :
    (t.run colored path source).outcome (some l) =
      { (t.run colored path source).outcome none with
        stdout := String.join ((l.admitted 0 (t.logs path source)).map
            fun b => l.subscriber.line b.1 b.2) ++
          ((t.run colored path source).outcome none).stdout } := by
  have hresult : ∀ w ∈ (t.result colored path source).writes, w.isLog = false := fun _ =>
    isLog_of_mem_result colored path source
  rw [run_eq, Run.outcome_logs (some l) _ hresult, Run.outcome_logs none _ hresult,
    Run.shown_none_logs, String.empty_append, l.shown_logs]

theorem target_of_mem_logs {path source : String} {t : Task} {r : LogRecord}
    (h : r ∈ t.logs path source) : r.target ∈ LogRecord.targets := by
  obtain rfl | h := List.mem_cons.1 h
  · cases t <;> simp [record, LogRecord.targets]
  · obtain ⟨event, -, rfl⟩ := List.mem_map.1 h
    cases event <;> simp [ScanEvent.record, LogRecord.targets]

theorem newline_not_mem_message_of_transcriptOf {source : String} {e : ScanError}
    (h : .failed e ∈ transcriptOf source) : '\n' ∉ e.message.toList := by
  rw [transcriptOf_eq, Scan.events] at h
  obtain h | h := List.mem_append.1 h
  · obtain ⟨t, -, ht⟩ := List.mem_map.1 h
    cases ht
  · have hlast := List.mem_singleton.1 h
    cases herror : (scanOf source).error with
    | none =>
      rw [herror] at hlast
      cases hlast
    | some e' =>
      rw [herror] at hlast
      cases hlast
      rw [scanOf_eq] at herror
      exact (lexes_start source).newline_not_mem_message (Scan.mem_of_error herror)

/-- The record of a task quotes the path, and the others show at most one line of the source. -/
theorem oneLine_of_mem_logs {path source : String} {t : Task} {r : LogRecord}
    (h : r ∈ t.logs path source) : r.OneLine where
  target := LogRecord.newline_not_mem_target _ (target_of_mem_logs h)
  message := by
    obtain rfl | h := List.mem_cons.1 h
    · cases t <;> simp [record]
    · obtain ⟨event, -, rfl⟩ := List.mem_map.1 h
      cases event <;> simp [ScanEvent.record]
  fields := by
    have hdigits (n : Nat) := Text.not_mem_toDigits (c := '\n') (by decide) n
    rw [logs_eq] at h
    obtain rfl | h := List.mem_cons.1 h
    · have hpath : '\n' ∉ (Text.quote path).toList := by
        rw [Text.quote, String.toList_ofList]
        exact Text.newline_not_mem_quoteWith (.inl rfl) _
      cases t <;> simp [record, record.fields, LogValue.show, hpath, hdigits]
    · obtain ⟨event, hevent, rfl⟩ := List.mem_map.1 h
      cases event with
      | scanned t =>
        simp [ScanEvent.record, LogValue.show, Token.newline_not_mem_describe,
          Span.newline_not_mem_text]
      | endOfInput n => simp [ScanEvent.record, LogValue.show, hdigits]
      | failed e =>
        simp [ScanEvent.record, LogValue.show, newline_not_mem_message_of_transcriptOf hevent]

end Task

namespace Command

theorem parse_eq_file_iff {args : List String} {t : Task} {o : Except Refusal Options} :
    parse args = file t o ↔ ∃ rest, args = t.name :: rest ∧ Options.read rest = o := by
  constructor
  · intro h
    unfold parse at h
    split at h
    · cases h
    · split at h
      · obtain ⟨rfl, rfl⟩ := Command.file.inj h
        exact ⟨_, rfl, rfl⟩
      · obtain ⟨rfl, rfl⟩ := Command.file.inj h
        exact ⟨_, rfl, rfl⟩
      all_goals cases h
  · rintro ⟨rest, rfl, rfl⟩
    cases t <;> rfl

/-- The arguments are those of a task on a file, and it holds a text. -/
def Reads (read : String → Except ReadError String) (args : List String) (t : Task)
    (path source : String) : Prop :=
  ∃ rest o, args = t.name :: rest ∧ Opens read rest o path source

def outcome (read : String → Except ReadError String) (terminal : Bool) (args : List String)
    (logging : Option Logging) : Outcome := ((parse args).run read terminal).outcome logging

theorem no_log_warnings (ignored : List String) {ws : List Write} (h : ∀ w ∈ ws, w.isLog = false) :
    ∀ w ∈ warnings ignored ++ ws, w.isLog = false := fun w hw =>
  (List.mem_append.1 hw).elim isLog_of_mem_warnings (h w)

/-- Only a file that is read leads to a log. -/
theorem no_log_or_reads (read : String → Except ReadError String) (terminal : Bool)
    (args : List String) :
    (∀ w ∈ ((parse args).run read terminal).writes, w.isLog = false) ∨
      ∃ t path source, Reads read args t path source := by
  generalize hc : parse args = c
  cases c with
  | usage => exact .inl (List.forall_mem_singleton.2 rfl)
  | version => exact .inl (List.forall_mem_singleton.2 rfl)
  | unknown name => exact .inl (List.forall_mem_cons.2 ⟨rfl, List.forall_mem_singleton.2 rfl⟩)
  | file t o =>
    obtain ⟨rest, rfl, rfl⟩ := parse_eq_file_iff.1 hc
    rw [← Task.invoke_eq]
    cases reading read rest with
    | refused r hargs =>
      rw [Task.invoke_refused terminal hargs]
      exact .inl (no_log_warnings _ (by simp [Write.isLog]))
    | pathless o hargs hpath =>
      rw [Task.invoke_pathless terminal hargs hpath]
      exact .inl (no_log_warnings _ (by simp [Write.isLog]))
    | unread o path e hargs hpath hread =>
      rw [Task.invoke_unread terminal hargs hpath hread]
      exact .inl (no_log_warnings _ (by simp [Write.isLog]))
    | text o path source h => exact .inr ⟨t, path, source, rest, o, rfl, h⟩

section
variable {read : String → Except ReadError String} {args : List String}

theorem Reads.unique {t t' : Task} {path path' source source' : String}
    (h : Reads read args t path source) (h' : Reads read args t' path' source') :
    t = t' ∧ path = path' ∧ source = source' := by
  obtain ⟨rest, o, hargs, hopens⟩ := h
  obtain ⟨rest', o', hargs', hopens'⟩ := h'
  obtain ⟨hname, rfl⟩ := List.cons.inj (hargs.symm.trans hargs')
  obtain rfl := Except.ok.inj (hopens.options_eq.symm.trans hopens'.options_eq)
  obtain rfl := Option.some.inj (hopens.path_eq.symm.trans hopens'.path_eq)
  obtain rfl := Except.ok.inj (hopens.read_eq.symm.trans hopens'.read_eq)
  refine ⟨?_, rfl, rfl⟩
  cases t <;> cases t' <;> first | rfl | exact absurd hname (by decide)

theorem Reads.outcome_logged {t : Task} {path source : String} (h : Reads read args t path source)
    (terminal : Bool) (l : Logging) :
    outcome read terminal args (some l) =
      { outcome read terminal args none with
        stdout := String.join ((l.admitted 0 (t.logs path source)).map
            fun b => l.subscriber.line b.1 b.2) ++
          (outcome read terminal args none).stdout } := by
  obtain ⟨rest, o, rfl, hopens⟩ := h
  have hrun : (parse (t.name :: rest)).run read terminal = _ := Task.invoke_text terminal hopens t
  rw [outcome, outcome, hrun, outcome_warnings, outcome_warnings, Task.outcome_logged]

end

/-- The run with logging `l` beside the run without. -/
structure LogApart (read : String → Except ReadError String) (terminal : Bool) (args : List String)
    (setting : LogSetting) (l : Logging) (block : List (String × LogRecord)) : Prop where
  outcome_eq : outcome read terminal args (some l) =
    { outcome read terminal args none with
      stdout := String.join (block.map fun b => l.subscriber.line b.1 b.2) ++
        (outcome read terminal args none).stdout }
  line : ∀ b ∈ block, (∃ n, b.1 = l.stamps n) ∧
    ∃ text, l.subscriber.line b.1 b.2 = text ++ "\n" ∧ '\n' ∉ text.toList
  unread (h : ∀ t path source, ¬ Reads read args t path source) : block = []
  records {t : Task} {path source : String} (h : Reads read args t path source) :
    block.map Prod.snd =
      (t.record path source :: (transcriptOf source).map ScanEvent.record).filter (setting.covers ·)
  trace (hsetting : setting = .level .trace) {t : Task} {path source : String}
      (h : Reads read args t path source) :
    block.map Prod.snd = t.record path source :: (transcriptOf source).map ScanEvent.record
  own (t : Task) (path source : String) :
    (t.record path source).level = .debug ∧
      (t.record path source).fields.lookup "bytes" = some (.number source.utf8ByteSize)

/-- A setting of the log changes nothing but a block of lines ahead of the output. The block is
empty if no file is read. Else it has what the setting covers of the record of the command and of
the events of the scan, which both commands have in common; under `trace`, that is all. -/
theorem log_apart {s : Subscriber} (hs : s.Documented) {stamps : Nat → String}
    (hstamps : ∀ n, '\n' ∉ (stamps n).toList) (read : String → Except ReadError String)
    (terminal : Bool) (args : List String) (setting : LogSetting) :
    ∃ block, LogApart read terminal args setting ⟨s, setting.text, stamps⟩ block := by
  let l : Logging := ⟨s, setting.text, stamps⟩
  have hown (t : Task) (path source : String) : (t.record path source).level = .debug ∧
      (t.record path source).fields.lookup "bytes" = some (.number source.utf8ByteSize) := by
    cases t <;> exact ⟨rfl, rfl⟩
  by_cases hreads : ∃ t path source, Reads read args t path source
  · obtain ⟨t, path, source, hreads⟩ := hreads
    have hrecords : (l.admitted 0 (t.logs path source)).map Prod.snd =
        (t.logs path source).filter (setting.covers ·) := by
      rw [l.map_snd_admitted]
      exact List.filter_congr fun r hr => setting.admits_eq_covers hs (Task.target_of_mem_logs hr)
    refine ⟨l.admitted 0 (t.logs path source), hreads.outcome_logged terminal l, fun b hb => ?_,
      fun hno => absurd hreads (hno t path source), fun h => ?_, ?_, hown⟩
    · obtain ⟨⟨n, hn⟩, hmem⟩ := l.of_mem_admitted _ _ hb
      exact ⟨⟨n, hn⟩, hs.exists_line (hn ▸ hstamps n) (Task.oneLine_of_mem_logs hmem)⟩
    · obtain ⟨rfl, rfl, rfl⟩ := hreads.unique h
      rw [hrecords, Task.logs_eq]
    · rintro rfl t' path' source' h
      obtain ⟨rfl, rfl, rfl⟩ := hreads.unique h
      rw [hrecords, Task.logs_eq]
      exact List.filter_eq_self.2 fun r _ => decide_eq_true r.level.rank_le_trace
  · have hquiet : outcome read terminal args (some l) = outcome read terminal args none :=
      Run.outcome_of_no_log ((no_log_or_reads read terminal args).resolve_right hreads) _
    have hnone {t : Task} {path source : String} : ¬ Reads read args t path source := fun h =>
      hreads ⟨t, path, source, h⟩
    refine ⟨[], hquiet.trans ?_, nofun, fun _ => rfl, fun h => absurd h hnone,
      fun _ _ _ _ h => absurd h hnone, hown⟩
    rw [List.map_nil, String.join_nil, String.empty_append]

/-- A file with a fault, under two settings, and a file that is missing. -/
theorem log_apart_files :
    let read : String → Except ReadError String := fun path =>
      if path = "f" then .ok "x #" else .error .missing
    let stamps (_ : Nat) := "0s"
    let loud (args : List String) (setting : LogSetting) :=
      outcome read false args (some ⟨.standard, setting.text, stamps⟩)
    let quiet (args : List String) := outcome read false args none
    let lines (rs : List LogRecord) := String.join (rs.map (Subscriber.standard.line "0s"))
    let own : LogRecord := ⟨.debug, "mathlangc::commands::debug", "lexing file",
      [("path", .text "\"f\""), ("bytes", .number 3)]⟩
    let scanned : LogRecord := ⟨.trace, scanTarget, "scanned token",
      [("token", .text "Name(\"x\")"), ("span", .text "0..1")]⟩
    let failed : LogRecord := ⟨.debug, scanTarget, "scan failed",
      [("error", .text "invalid token `#` at 2..3")]⟩
    (Subscriber.standard.Documented ∧ ∀ n, '\n' ∉ (stamps n).toList) ∧
    loud ["lex", "f"] (.level .trace) = { quiet ["lex", "f"] with
      stdout := lines [own, scanned, failed] ++ (quiet ["lex", "f"]).stdout } ∧
    loud ["check", "f"] (.crateLevel .lexer .debug) = { quiet ["check", "f"] with
      stdout := lines [failed] ++ (quiet ["check", "f"]).stdout } ∧
    loud ["lex", "g"] (.level .debug) = quiet ["lex", "g"] := by
  intro read stamps loud quiet lines own scanned failed
  have hstamps : ∀ n, '\n' ∉ (stamps n).toList := fun _ => by decide
  have hlex : Reads read ["lex", "f"] .lex "f" "x #" :=
    ⟨["f"], ⟨.auto, some "f", []⟩, rfl, by decide +kernel, rfl, rfl⟩
  have hcheck : Reads read ["check", "f"] .check "f" "x #" :=
    ⟨["f"], ⟨.auto, some "f", []⟩, rfl, by decide +kernel, rfl, rfl⟩
  have hmissing (t : Task) (path source : String) : ¬ Reads read ["lex", "g"] t path source := by
    rintro ⟨rest, o, hargs, hopens⟩
    obtain rfl := (List.cons.inj hargs).2
    have hoptions : Options.read ["g"] = .ok ⟨.auto, some "g", []⟩ := by decide +kernel
    obtain rfl := Except.ok.inj (hoptions.symm.trans hopens.options_eq)
    obtain rfl := Option.some.inj hopens.path_eq
    cases hopens.read_eq
  have htold : transcriptOf "x #" =
      [.scanned ⟨.name "x", ⟨0, 1⟩⟩, .failed ⟨.invalidWord "#", ⟨2, 3⟩⟩] := by decide +kernel
  -- all stamps are the same, so the records of a block tell its lines
  have hlines {block : List (String × LogRecord)} (rs : List LogRecord)
      (hstamp : ∀ b ∈ block, ∃ n, b.1 = stamps n) (hrecords : block.map Prod.snd = rs) :
      String.join (block.map fun b => Subscriber.standard.line b.1 b.2) = lines rs := by
    rw [← hrecords]
    refine congrArg String.join ?_
    rw [List.map_map]
    refine List.map_congr_left fun b hb => ?_
    obtain ⟨n, hn⟩ := hstamp b hb
    rw [hn]
    rfl
  obtain ⟨block, h⟩ := log_apart Subscriber.standard_documented hstamps read false ["lex", "f"]
    (.level .trace)
  obtain ⟨block', h'⟩ := log_apart Subscriber.standard_documented hstamps read false ["check", "f"]
    (.crateLevel .lexer .debug)
  obtain ⟨block'', h''⟩ := log_apart Subscriber.standard_documented hstamps read false ["lex", "g"]
    (.level .debug)
  have hall := hlines [own, scanned, failed] (fun b hb => (h.line b hb).1)
    ((h.trace rfl hlex).trans (by rw [htold]; decide +kernel))
  have hsome := hlines [failed] (fun b hb => (h'.line b hb).1)
    ((h'.records hcheck).trans (by rw [htold]; decide +kernel))
  have hnone := h''.outcome_eq
  have hloud := h.outcome_eq
  have hloud' := h'.outcome_eq
  rw [hall] at hloud
  rw [hsome] at hloud'
  rw [h''.unread hmissing, List.map_nil, String.join_nil, String.empty_append] at hnone
  exact ⟨⟨Subscriber.standard_documented, hstamps⟩, hloud, hloud', hnone⟩

end Command
end TokenScan
