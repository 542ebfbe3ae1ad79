import TokenScan.Log
import TokenScan.Proofs.LineTexts
import TokenScan.Proofs.ListingLines
import TokenScan.Proofs.Requests

namespace TokenScan

/-- What a scan of `n` bytes tells: each of its tokens, and then how it ended. -/
def Scan.events (n : Nat) (k : Scan) : List ScanEvent :=
  k.tokens.map .scanned ++ [k.error.elim (.endOfInput n) .failed]

namespace Scanner

open Scan (ofResults)

/-- What a step in a source of `n` bytes tells of its result. -/
def eventOf (n : Nat) : Except ScanError (Option LocatedToken) → ScanEvent
  | .ok none => .endOfInput n
  | .ok (some t) => .scanned t
  | .error e => .failed e

theorem log_next (s : Scanner) :
    s.next.2.log = s.log.push (eventOf s.source.utf8ByteSize s.next.1) := by
  unfold next
  dsimp only
  split
  next h =>
    -- with nothing ahead, the place is the size of the source
    have hlen := (s.cursor.skipWhile Text.isBlank).pos_add_byteLength_rest
    rw [(Cursor.atEnd_iff _).1 h] at hlen
    exact congrArg (fun n => s.log.push (.endOfInput n)) hlen
  next => split <;> rfl

theorem log_pull {s : Scanner} (hs : s.stopped = false) : s.pull.2.log = s.next.2.log := by
  have hsnd : s.nextToken.2 = s.next.2 := rfl
  simp only [pull, hs]
  rcases hn : s.nextToken with ⟨e | _ | t, s'⟩ <;> rw [hn] at hsnd <;> subst hsnd <;> rfl

/-- What a drain is going to tell. -/
def events (s : Scanner) : List ScanEvent := (ofResults s.results).events s.source.utf8ByteSize

section
variable {s s' : Scanner}

/-- A token goes from what is to be told to what is told. -/
theorem log_append_events {t : LocatedToken} (h : s.next = (.ok (some t), s')) :
    s'.log.toList ++ s'.events = s.log.toList ++ s.events := by
  have hlog := s.log_next
  have hsource := s.precedes_next.source
  rw [h] at hlog hsource
  rw [hlog, events, events, hsource, results_of_token h, Array.toList_push, List.append_assoc]
  rfl

theorem log_of_nothing (h : s.next = (.ok none, s')) : s'.log.toList = s.log.toList ++ s.events := by
  have hlog := s.log_next
  rw [h] at hlog
  rw [hlog, events, results_of_nothing h, Array.toList_push]
  rfl

theorem log_of_fault {e : ScanError} (h : s.next = (.error e, s')) :
    s'.log.toList = s.log.toList ++ s.events := by
  have hlog := s.log_next
  rw [h] at hlog
  rw [hlog, events, results_of_fault h, Array.toList_push]
  rfl

theorem log_readOnto (read : Array Token) (s : Scanner) :
    (TokenSource.readOnto read s).2.log.toList = s.log.toList ++ s.events := by
  fun_induction TokenSource.readOnto read s with
  | case1 read s t s' h _ ih =>
    obtain ⟨p, hn⟩ := next_of_nextToken h
    rw [ih, log_append_events hn]
  | case2 read s s' h => exact log_of_nothing (next_of_nextToken h)
  | case3 read s e s' h => exact log_of_fault (next_of_nextToken h)

theorem log_keepOnto (read : Array LocatedToken) (s : Scanner) :
    (keepOnto read s).2.log.toList = s.log.toList ++ s.events := by
  fun_induction keepOnto read s with
  | case1 read s t s' h _ ih => rw [ih, log_append_events h]
  | case2 read s s' h => exact log_of_nothing h
  | case3 read s e s' h => exact log_of_fault h

theorem log_of_pull_fault (hs : s.stopped = false) {e : ScanError}
    (h : s.pull = (some (.error e), s')) : s'.log.toList = s.log.toList ++ s.events := by
  obtain ⟨s'', hn⟩ := next_of_pull hs h
  have hlog := log_pull hs
  rw [h, hn] at hlog
  rw [hlog, log_of_fault hn]

theorem log_collectOnto (read : Array Token) {s : Scanner} (hs : s.stopped = false) :
    (collectOnto read s).2.log.toList = s.log.toList ++ s.events := by
  fun_induction collectOnto read s with
  | case1 read s t s' h _ ih =>
    obtain ⟨hs', p, hn⟩ := next_of_pull hs h
    rw [ih hs', log_append_events hn]
  | case2 read s e s' h => exact log_of_pull_fault hs h
  | case3 read s s' h => exact log_of_nothing (next_of_pull hs h)

theorem log_countFrom (n : Nat) {s : Scanner} (hs : s.stopped = false) :
    (countFrom n s).2.log.toList = s.log.toList ++ s.events := by
  fun_induction countFrom n s with
  | case1 n s t s' h _ ih =>
    obtain ⟨hs', p, hn⟩ := next_of_pull hs h
    rw [ih hs', log_append_events hn]
  | case2 n s e s' h => exact log_of_pull_fault hs h
  | case3 n s s' h => exact log_of_nothing (next_of_pull hs h)

end

end Scanner

theorem transcriptOf_eq (source : String) :
    transcriptOf source = (scanOf source).events source.utf8ByteSize := by
  rw [transcriptOf, TokenSource.readAll, Scanner.log_readOnto, Scanner.events, scanOf_eq]
  rfl

namespace Listing

theorem splitOn_lines (ts : List LocatedToken) :
    (ts.flatMap fun t => (line t).toList).splitOn '\n' =
      ts.map (fun t => (row t).toList) ++ [[]] := by
  induction ts with
  | nil => rfl
  | cons t ts ih =>
    rw [List.flatMap_cons, toList_line_eq_row, List.append_assoc, List.singleton_append,
      List.splitOn_append_cons_self_of_not_mem (newline_not_mem_row t), ih]
    rfl

theorem heading_eq (path : String) (n : Nat) :
    heading path n = "Tokens for '" ++ path ++ "' (" ++ toString n ++ " tokens):" ++ "\n" := by
  rw [String.append_assoc]
  rfl

theorem drop_splitOn_text (path : String) (ts : List LocatedToken) :
    ((text path ts).toList.splitOn '\n').drop (path.toList.count '\n' + 1) =
      ts.map (fun t => (row t).toList) ++ [[]] := by
  obtain ⟨top, htop⟩ : ∃ top, (heading path ts.length).toList = top ++ ['\n'] :=
    ⟨_, heading_eq path ts.length ▸ String.toList_append⟩
  have hcount := count_heading path ts.length
  rw [htop, List.count_append, List.count_singleton_self, Nat.add_right_cancel_iff] at hcount
  rw [toList_text, htop, List.append_assoc, List.singleton_append, List.splitOn_append_cons_self,
    ← hcount, ← Text.length_splitOn, List.drop_left, splitOn_lines]

end Listing

def LogRecord.shown (r : LogRecord) (key : String) : String :=
  ((r.fields.lookup key).map LogValue.show).getD ""

theorem filter_records (n : Nat) (k : Scan) :
    ((k.events n).map ScanEvent.record).filter (·.level = .trace) =
      k.tokens.map fun t => (ScanEvent.scanned t).record := by
  have htokens : (k.tokens.map fun t => (ScanEvent.scanned t).record).filter (·.level = .trace) =
      k.tokens.map fun t => (ScanEvent.scanned t).record :=
    List.filter_eq_self.2 (List.forall_mem_map.2 fun _ _ => rfl)
  have hlast : [(k.error.elim (.endOfInput n) .failed : ScanEvent).record].filter
      (·.level = .trace) = [] := by
    cases k.error <;> rfl
  rw [Scan.events, List.map_append, List.filter_append, List.map_map, List.map_singleton, hlast,
    List.append_nil]
  exact htokens

/-- The log of a scan is its transcript: one record for each of its tokens, in their order and with
the token and its place, and one last record, of the end of the source or of the error. The records
of tokens tell in their order what the listing of these tokens tells behind its heading, line by
line. -/
theorem records_of_transcript (source : String) :
    let k := scanOf source
    let records := (transcriptOf source).map ScanEvent.record
    records =
      k.tokens.map (fun t => ⟨.trace, scanTarget, "scanned token",
        [("token", .text t.token.describe), ("span", .text t.span.text)]⟩) ++
      [match k.error with
        | none => ⟨.debug, scanTarget, "end of input", [("pos", .number source.utf8ByteSize)]⟩
        | some e => ⟨.debug, scanTarget, "scan failed", [("error", .text e.message)]⟩] ∧
    ∀ path : String,
      ((Listing.text path k.tokens).toList.splitOn '\n').drop (path.toList.count '\n' + 1) =
        (records.filter (·.level = .trace)).map
          (fun r => ("  " ++ r.shown "token" ++ " @ " ++ r.shown "span").toList) ++ [[]] := by
  intro k records
  have hrecords : records = (k.events source.utf8ByteSize).map ScanEvent.record := by
    rw [← transcriptOf_eq]
  refine ⟨?_, fun path => ?_⟩
  · rw [hrecords, Scan.events, List.map_append, List.map_map, List.map_singleton]
    cases k.error <;> rfl
  · rw [hrecords, filter_records, List.map_map, Listing.drop_splitOn_text]
    rfl

example : transcriptOf "x #" = [.scanned ⟨.name "x", ⟨0, 1⟩⟩, .failed ⟨.invalidWord "#", ⟨2, 3⟩⟩] := by
  decide +kernel

end TokenScan
