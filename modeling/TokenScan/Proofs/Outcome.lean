import TokenScan.Command

namespace TokenScan

namespace Write

def isLog : Write → Bool
  | log _ => true
  | _ => false

def outText : Write → String
  | out s => s
  | _ => ""

def errText : Write → String
  | err s => s
  | _ => ""

theorem join_eq_empty {f : Write → String} {ws : List Write} (h : ∀ w ∈ ws, f w = "") :
    String.join (ws.map f) = "" := by
  induction ws with
  | nil => rfl
  | cons w ws ih =>
    obtain ⟨hw, hws⟩ := List.forall_mem_cons.1 h
    rw [List.map_cons, String.join_cons, hw, ih hws, String.empty_append]

end Write

/-- What is seen of a run. -/
structure Outcome where
  stdout : String
  stderr : String
  code : Nat
  panics : Bool
deriving DecidableEq

namespace Run

def outcome (logging : Option Logging) (r : Run) : Outcome :=
  ⟨r.stdout logging, r.stderr, r.code, r.panics⟩

section
variable {logging : Option Logging} {n : Nat} {ws : List Write}

theorem shown_append (logging : Option Logging) (n : Nat) (ws vs : List Write) :
    shown logging n (ws ++ vs) =
      shown logging n ws ++ shown logging (n + ws.countP Write.isLog) vs := by
  induction ws generalizing n with
  | nil => exact String.empty_append.symm
  | cons w ws ih =>
    have hcount : (w :: ws).countP Write.isLog =
        ws.countP Write.isLog + if w.isLog then 1 else 0 := List.countP_cons
    rw [hcount]
    cases w with
    | log r =>
      have hn : n + (ws.countP Write.isLog + 1) = n + 1 + ws.countP Write.isLog := by omega
      rw [List.cons_append, shown, shown, ih, String.append_assoc, Write.isLog, if_pos rfl, hn]
    | out s => exact (congrArg (s ++ ·) (ih n)).trans String.append_assoc.symm
    | err s => exact ih n
    | panic => exact ih n

/-- Where no record is shown, the output alone is. -/
theorem shown_of_silent (h : ∀ r, .log r ∈ ws → ∀ k, recordText logging k r = "") :
    shown logging n ws = String.join (ws.map Write.outText) := by
  induction ws generalizing n with
  | nil => rfl
  | cons w ws ih =>
    have hws {k : Nat} := ih (n := k) fun r hr => h r (List.mem_cons_of_mem w hr)
    rw [List.map_cons, String.join_cons]
    cases w with
    | log r =>
      rw [shown, h r List.mem_cons_self, hws]
      rfl
    | out s => exact congrArg (s ++ ·) hws
    | err s => exact hws.trans String.empty_append.symm
    | panic => exact hws.trans String.empty_append.symm

theorem shown_of_no_log (h : ∀ w ∈ ws, w.isLog = false) :
    shown logging n ws = String.join (ws.map Write.outText) :=
  shown_of_silent fun _ hr => absurd (h _ hr) nofun

theorem shown_none : shown none n ws = String.join (ws.map Write.outText) :=
  shown_of_silent fun _ _ _ => rfl

theorem shown_none_logs (logs : List LogRecord) : shown none n (logs.map .log) = "" :=
  shown_none.trans (Write.join_eq_empty (List.forall_mem_map.2 fun _ _ => rfl))

theorem stderr_eq (r : Run) : r.stderr = String.join (r.writes.map Write.errText) := by
  rw [stderr]
  congr 2

end

/-- The block of log lines is ahead of all other output, and changes nothing else. -/
theorem outcome_logs (logging : Option Logging) (logs : List LogRecord) {r : Run}
    (h : ∀ w ∈ r.writes, w.isLog = false) :
    outcome logging ⟨logs.map .log ++ r.writes, r.code⟩ =
      { r.outcome none with
        stdout := shown logging 0 (logs.map .log) ++ (r.outcome none).stdout } := by
  have hstdout : stdout logging ⟨logs.map .log ++ r.writes, r.code⟩ =
      shown logging 0 (logs.map .log) ++ r.stdout none := by
    rw [stdout, shown_append, shown_of_no_log h, stdout, shown_none]
  have hstderr : stderr ⟨logs.map .log ++ r.writes, r.code⟩ = r.stderr := by
    rw [stderr_eq, List.map_append, String.join_append,
      Write.join_eq_empty (List.forall_mem_map.2 fun _ _ => rfl), String.empty_append, ← stderr_eq]
  have hpanics : panics ⟨logs.map .log ++ r.writes, r.code⟩ = r.panics := by
    have hnone : (logs.map Write.log).contains .panic = false := by
      simp [List.contains_eq_mem]
    rw [panics, List.contains_append, hnone, Bool.false_or, panics]
  rw [outcome, hstdout, hstderr, hpanics]
  rfl

theorem outcome_output (out : Option String) {r : Run} (h : ∀ w ∈ r.writes, w.outText = "") :
    outcome none ⟨(out.map Write.out).toList ++ r.writes, r.code⟩ =
      { r.outcome none with stdout := out.getD "" } := by
  have hempty : String.join (r.writes.map Write.outText) = "" := Write.join_eq_empty h
  rw [outcome, outcome, stdout, shown_none, List.map_append, String.join_append, hempty,
    String.append_empty, stderr_eq, stderr_eq r]
  cases out with
  | none => rfl
  | some s =>
    have hcons : (Write.out s :: r.writes).contains .panic = r.writes.contains .panic := rfl
    rw [Outcome.mk.injEq]
    exact ⟨String.empty_append, String.empty_append, rfl, hcons⟩

end Run

namespace Command

/-- What is said of arguments that are ignored. -/
def warningText (ignored : List String) : String :=
  String.join (ignored.map fun arg => "warning: ignoring argument '" ++ arg ++ "'\n")

theorem of_mem_warnings {ignored : List String} {w : Write} (h : w ∈ warnings ignored) :
    ∃ s, w = .err s := by
  obtain ⟨arg, -, rfl⟩ := List.mem_map.1 h
  exact ⟨_, rfl⟩

theorem isLog_of_mem_warnings {ignored : List String} {w : Write} (h : w ∈ warnings ignored) :
    w.isLog = false := by
  obtain ⟨s, rfl⟩ := of_mem_warnings h
  rfl

theorem outcome_warnings (logging : Option Logging) (ignored : List String) (r : Run) :
    Run.outcome logging ⟨warnings ignored ++ r.writes, r.code⟩ =
      { r.outcome logging with stderr := warningText ignored ++ r.stderr } := by
  have hlogs : ∀ w ∈ warnings ignored, w.isLog = false := fun _ => isLog_of_mem_warnings
  have hstdout : Run.stdout logging ⟨warnings ignored ++ r.writes, r.code⟩ = r.stdout logging := by
    have hcount : (warnings ignored).countP Write.isLog = 0 :=
      List.countP_eq_zero.2 fun w hw => Bool.eq_false_iff.1 (hlogs w hw)
    have hsilent : Run.shown logging 0 (warnings ignored) = "" :=
      (Run.shown_of_no_log hlogs).trans <|
        Write.join_eq_empty fun w hw => by obtain ⟨s, rfl⟩ := of_mem_warnings hw; rfl
    rw [Run.stdout, Run.shown_append, hsilent, hcount, String.empty_append]
    rfl
  have hstderr : Run.stderr ⟨warnings ignored ++ r.writes, r.code⟩ =
      warningText ignored ++ r.stderr := by
    rw [Run.stderr_eq, List.map_append, String.join_append, ← Run.stderr_eq r, warnings,
      List.map_map]
    rfl
  have hpanics : Run.panics ⟨warnings ignored ++ r.writes, r.code⟩ = r.panics := by
    have hnone : (warnings ignored).contains Write.panic = false := by
      rw [← Bool.not_eq_true, List.contains_iff_mem]
      intro hmem
      obtain ⟨s, hs⟩ := of_mem_warnings hmem
      cases hs
    rw [Run.panics, List.contains_append, hnone, Bool.false_or]
    rfl
  rw [Run.outcome, hstdout, hstderr, hpanics]
  rfl

theorem outcome_errors (logging : Option Logging) (ignored texts : List String) (code : Nat) :
    Run.outcome logging ⟨warnings ignored ++ texts.map .err, code⟩ =
      ⟨"", warningText ignored ++ String.join texts, code, false⟩ := by
  have hlogs : ∀ w ∈ texts.map Write.err, w.isLog = false := List.forall_mem_map.2 fun _ _ => rfl
  have hstdout : Run.stdout logging ⟨texts.map .err, code⟩ = "" :=
    (Run.shown_of_no_log hlogs).trans (Write.join_eq_empty (List.forall_mem_map.2 fun _ _ => rfl))
  have hstderr : Run.stderr ⟨texts.map .err, code⟩ = String.join texts := by
    rw [Run.stderr_eq, List.map_map]
    exact congrArg String.join (List.map_id texts)
  have hpanics : Run.panics ⟨texts.map .err, code⟩ = false := by
    rw [Run.panics, ← Bool.not_eq_true, List.contains_iff_mem]
    intro hmem
    obtain ⟨s, -, hs⟩ := List.mem_map.1 hmem
    cases hs
  refine (outcome_warnings logging ignored ⟨texts.map .err, code⟩).trans ?_
  rw [Run.outcome, hstdout, hstderr, hpanics]

end Command
end TokenScan
