import TokenScan.Proofs.ReportShape

namespace TokenScan

namespace Paint

/-- What switches a color on or off. -/
def sequences : List (List Char) :=
  [error.code.toList, help.code.toList, gutter.code.toList, reset.toList]

/-- What stands behind the sequence that a text begins with. -/
def behind? (cs : List Char) : Option (List Char) := sequences.findSome? (·.isPrefixOf? cs)

theorem exists_of_behind? {cs rest : List Char} (h : behind? cs = some rest) :
    ∃ q ∈ sequences, q ++ rest = cs := by
  obtain ⟨q, hq, hrest⟩ := List.exists_of_findSome?_eq_some h
  exact ⟨q, hq, List.append_eq_of_isPrefixOf?_eq_some hrest⟩

theorem length_lt_of_behind? {cs rest : List Char} (h : behind? cs = some rest) :
    rest.length < cs.length := by
  obtain ⟨q, hq, rfl⟩ := exists_of_behind? h
  have hpos : ∀ q ∈ sequences, 0 < q.length := by decide
  have := hpos q hq
  rw [List.length_append]
  omega

/-- A text without its sequences, which are deleted from left to right. What is left may come
together to a new sequence, and that stays. -/
def delete (cs : List Char) : List Char :=
  match h : behind? cs with
  | some rest =>
    have := length_lt_of_behind? h
    delete rest
  | none =>
    match cs with
    | [] => []
    | c :: cs => c :: delete cs
termination_by cs.length

def strip (s : String) : String := String.ofList (delete s.toList)

example : strip "a\x1b[0\x1b[1;34mm\x1b[0mb" = "a\x1b[0mb" := by decide +kernel

theorem behind?_append {q : List Char} (hq : q ∈ sequences) (rest : List Char) :
    behind? (q ++ rest) = some rest := by
  simp only [sequences, List.mem_cons, List.not_mem_nil, or_false] at hq
  rcases hq with rfl | rfl | rfl | rfl <;> rfl

theorem behind?_eq_none {cs : List Char} (h : ∀ q ∈ sequences, ¬ q <+: cs) : behind? cs = none := by
  refine Option.eq_none_iff_forall_ne_some.2 fun rest hrest => ?_
  obtain ⟨q, hq, rfl⟩ := exists_of_behind? hrest
  exact h q hq (List.prefix_append q rest)

theorem not_prefix_of_behind? {cs q : List Char} (h : behind? cs = none) (hq : q ∈ sequences) :
    ¬ q <+: cs := by
  rintro ⟨rest, rfl⟩
  rw [behind?_append hq] at h
  cases h

@[simp] theorem delete_nil : delete [] = [] := by
  rw [delete]
  rfl

theorem delete_of_behind? {cs rest : List Char} (h : behind? cs = some rest) :
    delete cs = delete rest := by
  rw [delete]
  split
  next more hmore => rw [Option.some.inj (h.symm.trans hmore)]
  next hnone =>
    rw [h] at hnone
    cases hnone

theorem delete_cons {c : Char} {cs : List Char} (h : behind? (c :: cs) = none) :
    delete (c :: cs) = c :: delete cs := by
  rw [delete]
  split
  next rest hrest =>
    rw [h] at hrest
    cases hrest
  next => rfl

theorem delete_sequence_append {q : List Char} (hq : q ∈ sequences) (cs : List Char) :
    delete (q ++ cs) = delete cs :=
  delete_of_behind? (behind?_append hq cs)

theorem delete_of_not_mem {cs : List Char} (h : '\x1b' ∉ cs) : delete cs = cs := by
  induction cs with
  | nil => exact delete_nil
  | cons c cs ih =>
    have hescape : ∀ q ∈ sequences, '\x1b' ∈ q := by decide
    have hnone : behind? (c :: cs) = none :=
      behind?_eq_none fun q hq hfront => h (hfront.subset (hescape q hq))
    rw [delete_cons hnone, ih (List.not_mem_of_not_mem_cons h)]

theorem code_mem_sequences (k : Paint) : k.code.toList ∈ sequences := by cases k <;> decide

theorem reset_mem_sequences : reset.toList ∈ sequences := by decide

def alphabet : List Char := sequences.flatten

/-- A text behind which no sequence goes on. -/
def IsClear (cs : List Char) : Prop := ∀ c ∈ cs.getLast?, c ∉ alphabet

@[simp] theorem isClear_singleton {c : Char} : IsClear [c] ↔ c ∉ alphabet := by simp [IsClear]

@[simp] theorem isClear_cons_cons {c x : Char} {cs : List Char} :
    IsClear (x :: c :: cs) ↔ IsClear (c :: cs) := by
  simp [IsClear]

@[simp] theorem isClear_append_cons {c : Char} {a cs : List Char} :
    IsClear (a ++ c :: cs) ↔ IsClear (c :: cs) := by
  simp [IsClear, List.getLast?_append]

@[simp] theorem isClear_cons_append_cons {c x : Char} {a cs : List Char} :
    IsClear (x :: (a ++ c :: cs)) ↔ IsClear (c :: cs) := by
  rw [← List.cons_append, isClear_append_cons]

theorem isClear_replicate (n : Nat) {c : Char} (hc : c ∉ alphabet) : IsClear (List.replicate n c) :=
  fun _ hx => List.eq_of_mem_replicate (List.mem_of_getLast? hx) ▸ hc

theorem IsClear.of_append {a b : List Char} (h : IsClear (a ++ b)) : IsClear b := by
  intro c hc
  exact h c (by rw [List.getLast?_append, Option.mem_def.1 hc]; rfl)

/-- A sequence at the front of `a ++ b` either lies in `a` or has all of `a` in it, also its end. -/
theorem IsClear.behind?_append {a : List Char} (h : IsClear a) (ha : a ≠ [])
    (hnone : behind? a = none) (b : List Char) : behind? (a ++ b) = none := by
  refine behind?_eq_none fun q hq hfront => ?_
  rcases List.prefix_or_prefix_of_prefix hfront (List.prefix_append a b) with hqa | haq
  · exact not_prefix_of_behind? hnone hq hqa
  · have hlast := List.getLast?_eq_some_getLast ha
    exact h _ hlast (List.mem_flatten_of_mem hq (haq.subset (List.getLast_mem ha)))

theorem delete_append {a : List Char} (h : IsClear a) (b : List Char) :
    delete (a ++ b) = delete a ++ delete b := by
  fun_induction delete a with
  | case1 a rest hrest _ ih =>
    obtain ⟨q, hq, rfl⟩ := exists_of_behind? hrest
    rw [List.append_assoc, delete_sequence_append hq, ih h.of_append]
  | case2 hnone => rfl
  | case3 c cs hnone ih =>
    have hbehind := h.behind?_append (List.cons_ne_nil c cs) hnone b
    have hcs : IsClear cs := IsClear.of_append (List.singleton_append ▸ h)
    rw [List.cons_append] at hbehind ⊢
    rw [delete_cons hbehind, ih hcs, List.cons_append]

end Paint

namespace Piece

theorem toList_renderAll (colored : Bool) (ps : List Piece) :
    (renderAll colored ps).toList = ps.flatMap fun p => (p.render colored).toList := by
  rw [renderAll, String.toList_join, List.flatMap_map]

theorem render_false (p : Piece) : p.render false = p.text := by
  obtain ⟨text, _ | k⟩ := p <;> rfl

theorem delete_render_append {p : Piece} (h : Paint.IsClear p.text.toList) (colored : Bool)
    (cs : List Char) :
    Paint.delete ((p.render colored).toList ++ cs) =
      Paint.delete p.text.toList ++ Paint.delete cs := by
  obtain ⟨text, _ | k⟩ := p
  · exact Paint.delete_append h cs
  · cases colored with
    | false => exact Paint.delete_append h cs
    | true =>
      simp only [render, if_true, String.toList_append, List.append_assoc]
      rw [Paint.delete_sequence_append k.code_mem_sequences, Paint.delete_append h,
        Paint.delete_sequence_append Paint.reset_mem_sequences]

section
variable {ps : List Piece} (h : ∀ p ∈ ps, Paint.IsClear p.text.toList)
include h

theorem delete_renderAll (colored : Bool) :
    Paint.delete (renderAll colored ps).toList =
      ps.flatMap fun p => Paint.delete p.text.toList := by
  rw [toList_renderAll]
  induction ps with
  | nil => exact Paint.delete_nil
  | cons p ps ih =>
    obtain ⟨hp, hps⟩ := List.forall_mem_cons.1 h
    rw [List.flatMap_cons, delete_render_append hp, ih hps, List.flatMap_cons]

theorem strip_renderAll : Paint.strip (renderAll true ps) = Paint.strip (renderAll false ps) := by
  rw [Paint.strip, Paint.strip, delete_renderAll h, delete_renderAll h]

end

theorem strip_renderAll_of_not_mem {ps : List Piece} (h : ∀ p ∈ ps, '\x1b' ∉ p.text.toList) :
    Paint.strip (renderAll false ps) = renderAll false ps := by
  have hnot : '\x1b' ∉ (renderAll false ps).toList := by
    simpa [toList_renderAll, render_false] using h
  rw [Paint.strip, Paint.delete_of_not_mem hnot, String.ofList_toList]

end Piece

/-- What is written in one step: the start of a color, the end of one, or a character. -/
inductive Mark where
  | on (k : Paint)
  | off
  | char (c : Char)

namespace Mark

def written (colored : Bool) : Mark → List Char
  | on k => if colored then k.code.toList else []
  | off => if colored then Paint.reset.toList else []
  | char c => [c]

def paint? : Mark → Option Paint
  | on k => some k
  | _ => none

/-- With a color on or not: each color ends before the next one starts, and before its line and the
text end. -/
def closed : Bool → List Mark → Bool
  | lit, [] => !lit
  | lit, on _ :: ms => !lit && closed true ms
  | lit, off :: ms => lit && closed false ms
  | lit, char c :: ms => !(lit && c = '\n') && closed lit ms

theorem closed_append {lit : Bool} {ms ns : List Mark} (hms : closed lit ms = true)
    (hns : closed false ns = true) : closed lit (ms ++ ns) = true := by
  induction ms generalizing lit with
  | nil =>
    cases lit with
    | false => exact hns
    | true => cases hms
  | cons m ms ih =>
    cases m <;> simp only [closed, List.cons_append, Bool.and_eq_true] at hms ⊢ <;>
      exact ⟨hms.1, ih hms.2⟩

theorem closed_chars {lit : Bool} {cs : List Char} (hcs : lit = true → '\n' ∉ cs) (ms : List Mark) :
    closed lit (cs.map char ++ ms) = closed lit ms := by
  induction cs with
  | nil => rfl
  | cons c cs ih =>
    have hc : (lit && decide (c = '\n')) = false := by
      cases lit with
      | false => rfl
      | true => exact decide_eq_false fun h => hcs rfl (h ▸ List.mem_cons_self)
    rw [List.map_cons, List.cons_append, closed, hc,
      ih fun h => List.not_mem_of_not_mem_cons (hcs h)]
    rfl

theorem flatMap_written_chars (colored : Bool) (cs : List Char) :
    (cs.map char).flatMap (written colored) = cs := by
  rw [List.flatMap_map]
  exact List.flatMap_singleton' cs

end Mark

namespace Piece

def marks (p : Piece) : List Mark :=
  match p.paint with
  | some k => .on k :: (p.text.toList.map .char ++ [.off])
  | none => p.text.toList.map .char

theorem flatMap_written_marks (colored : Bool) (p : Piece) :
    p.marks.flatMap (Mark.written colored) = (p.render colored).toList := by
  obtain ⟨text, _ | k⟩ := p
  · exact Mark.flatMap_written_chars colored text.toList
  · rw [marks, List.flatMap_cons, List.flatMap_append, Mark.flatMap_written_chars]
    cases colored <;> simp [render, Mark.written]

theorem closed_marks {p : Piece} (h : p.paint.isSome → '\n' ∉ p.text.toList) :
    Mark.closed false p.marks = true := by
  obtain ⟨text, _ | k⟩ := p
  · have hplain : false = true → '\n' ∉ text.toList := nofun
    have hchars := Mark.closed_chars hplain []
    rwa [List.append_nil] at hchars
  · rw [marks, Mark.closed, Mark.closed_chars fun _ => h rfl]
    rfl

theorem filterMap_marks (p : Piece) : p.marks.filterMap Mark.paint? = p.paint.toList := by
  obtain ⟨text, _ | k⟩ := p <;> simp [marks, Mark.paint?, List.filterMap_map]

theorem flatMap_written_flatMap_marks (colored : Bool) (ps : List Piece) :
    (ps.flatMap marks).flatMap (Mark.written colored) = (renderAll colored ps).toList := by
  rw [List.flatMap_assoc, toList_renderAll]
  simp only [flatMap_written_marks]

theorem closed_flatMap_marks {ps : List Piece}
    (h : ∀ p ∈ ps, p.paint.isSome → '\n' ∉ p.text.toList) :
    Mark.closed false (ps.flatMap marks) = true := by
  induction ps with
  | nil => rfl
  | cons p ps ih =>
    obtain ⟨hp, hps⟩ := List.forall_mem_cons.1 h
    rw [List.flatMap_cons]
    exact Mark.closed_append (closed_marks hp) (ih hps)

theorem filterMap_flatMap_marks (ps : List Piece) :
    (ps.flatMap marks).filterMap Mark.paint? = ps.filterMap Piece.paint := by
  rw [List.filterMap_flatMap, List.filterMap_eq_flatMap_toList]
  simp only [filterMap_marks]

end Piece

def Fault.paints (f : Fault) : List Paint :=
  [.error, .gutter, .gutter, .gutter, .error] ++ if f.advice?.isSome then [.help] else []

namespace Diagnostic

section
variable (d : Diagnostic)

theorem isClear_of_mem_pieces : ∀ p ∈ d.pieces, Paint.IsClear p.text.toList := by
  have hclear : ∀ c ∈ ['\n', ' ', '|', '^', 'r', 'p'], c ∉ Paint.alphabet := by
    simp only [List.forall_mem_cons, List.not_mem_nil, false_imp_iff, implies_true, and_true]
    decide
  have hcarets := Paint.isClear_replicate d.width (hclear '^' (by decide))
  have hspaces := Paint.isClear_replicate (d.column - 1 + 1) (hclear ' ' (by decide))
  rw [List.replicate_succ] at hspaces
  simp only [List.forall_mem_cons] at hclear
  cases hf : d.fault <;>
    simp [pieces, advicePieces, notePieces, Fault.advice?, Fault.isDefect, Piece.plain,
      toList_spaces, hf, hclear, hcarets, hspaces]

theorem newline_not_mem_of_paint : ∀ p ∈ d.pieces, p.paint.isSome → '\n' ∉ p.text.toList := by
  have hdigits (n : Nat) := Text.not_mem_toDigits (c := '\n') (by decide) n
  cases hf : d.fault <;>
    simp [pieces, advicePieces, notePieces, Fault.advice?, Fault.isDefect, Piece.plain, margin,
      toList_spaces, hdigits, hf]

theorem filterMap_paint_pieces : d.pieces.filterMap Piece.paint = d.fault.paints := by
  cases hf : d.fault <;>
    simp [pieces, advicePieces, notePieces, Fault.paints, Fault.advice?, Fault.isDefect,
      Piece.plain, hf]

theorem escape_not_mem_pieces (hpath : '\x1b' ∉ d.path.toList) (htext : '\x1b' ∉ d.text.toList)
    (hword : ∀ w, d.fault = .invalidWord w → '\x1b' ∉ w.toList) :
    ∀ p ∈ d.pieces, '\x1b' ∉ p.text.toList := by
  have hdigits (n : Nat) := Text.not_mem_toDigits (c := '\x1b') (by decide) n
  have hmessage : '\x1b' ∉ d.fault.message.toList := by
    cases hf : d.fault with
    | invalidWord w =>
      show '\x1b' ∉ ("invalid token `" ++ w ++ "`").toList
      simp only [String.toList_append, List.mem_append, not_or]
      exact ⟨⟨by decide, hword w hf⟩, by decide⟩
    | _ => decide
  have hmargin : '\x1b' ∉ d.margin.toList := by simp [margin, toList_spaces]
  have hadvice : ∀ p ∈ d.advicePieces, '\x1b' ∉ p.text.toList := by
    have htexts : ∀ advice, d.fault.advice? = some advice → '\x1b' ∉ advice.toList := by
      rintro _ ha
      cases hf : d.fault <;> rw [hf] at ha <;> cases ha
      · decide
      · split <;> decide
    rw [advicePieces]
    split
    next advice ha => simp [Piece.plain, hmargin, htexts advice ha]
    next => exact List.forall_mem_nil _
  have hnote : ∀ p ∈ d.notePieces, '\x1b' ∉ p.text.toList := by
    rw [notePieces]
    split
    · rw [List.forall_mem_singleton, Piece.plain, String.toList_append, List.mem_append, not_or]
      exact ⟨hmargin, by decide⟩
    · exact List.forall_mem_nil _
  rw [pieces, List.forall_mem_append, List.forall_mem_append]
  refine ⟨⟨?_, hadvice⟩, hnote⟩
  simp [Piece.plain, place, toList_spaces, hdigits, hpath, htext, hmessage, hmargin]

end

theorem toList_subset_of_lineText? {t : LineTable} {n : Nat} {text : String}
    (h : t.lineText? n = some text) : text.toList ⊆ t.source.toList := by
  unfold LineTable.lineText? at h
  split at h
  · cases h
    exact List.nil_subset _
  split at h
  · cases h
    exact List.nil_subset _
  · obtain ⟨cs, hcs, rfl⟩ := Option.map_eq_some_iff.1 h
    obtain ⟨a, b, hs, -, -⟩ := Text.slice?_eq_some_iff.1 hcs
    have hdrop : LineTable.dropReturns cs <+: cs := List.rdropWhile_prefix _ cs
    intro c hc
    rw [Function.comp_apply, String.toList_ofList] at hc
    rw [hs]
    exact List.mem_append_left b (List.mem_append_right a (hdrop.subset hc))

variable {path source : String}

theorem fields_of_ofError? {e : ScanError} {d : Diagnostic} (h : ofError? path source e = some d) :
    d.fault = e.fault ∧ d.path = path ∧ d.text.toList ⊆ source.toList := by
  simp only [ofError?, Option.bind_eq_bind, Option.bind_eq_some_iff] at h
  obtain ⟨⟨line, column⟩, -, text, htext, marked, -, hd⟩ := h
  cases hd
  exact ⟨rfl, rfl, toList_subset_of_lineText? htext⟩

theorem forall₂_of_mapM {es : List ScanError} {ds : List Diagnostic}
    (h : es.mapM (ofError? path source) = some ds) :
    List.Forall₂ (fun e d => ofError? path source e = some d) es ds := by
  induction es generalizing ds with
  | nil =>
    cases h
    exact .nil
  | cons e es ih =>
    simp only [List.mapM_cons, Option.bind_eq_bind, Option.bind_eq_some_iff] at h
    obtain ⟨d, hd, ds, hds, h⟩ := h
    cases h
    exact .cons hd (ih hds)

theorem report?_eq (colored : Bool) (path source : String) (es : List ScanError) :
    report? colored path source es = (es.mapM (ofError? path source)).map fun ds =>
      Piece.renderAll colored (ds.flatMap pieces) := by
  have hrender (ds : List Diagnostic) :
      String.join (ds.map (render colored)) = Piece.renderAll colored (ds.flatMap pieces) := by
    rw [← String.toList_inj, String.toList_join, List.flatMap_map, Piece.toList_renderAll,
      List.flatMap_assoc]
    simp only [render, Piece.toList_renderAll]
  simp only [report?, hrender]

section
variable {es : List ScanError} {ds : List Diagnostic}
  (h : List.Forall₂ (fun e d => ofError? path source e = some d) es ds)
include h

theorem filterMap_paint_of_forall₂ :
    (ds.flatMap pieces).filterMap Piece.paint = es.flatMap fun e => e.fault.paints := by
  rw [List.filterMap_flatMap]
  induction h with
  | nil => rfl
  | cons hd _ ih =>
    rw [List.flatMap_cons, List.flatMap_cons, ih, filterMap_paint_pieces, (fields_of_ofError? hd).1]

theorem escape_not_mem_of_forall₂ (hpath : '\x1b' ∉ path.toList) (hsource : '\x1b' ∉ source.toList)
    (hwords : ∀ e ∈ es, ∀ w, e.fault = .invalidWord w → '\x1b' ∉ w.toList) :
    ∀ p ∈ ds.flatMap pieces, '\x1b' ∉ p.text.toList := by
  induction h with
  | nil => exact List.forall_mem_nil _
  | cons hd _ ih =>
    obtain ⟨hword, hwords⟩ := List.forall_mem_cons.1 hwords
    obtain ⟨hfault, rfl, htext⟩ := fields_of_ofError? hd
    rw [← hfault] at hword
    exact List.forall_mem_append.2
      ⟨escape_not_mem_pieces _ hpath (mt (@htext _) hsource) hword, ih hwords⟩

end

/-- Colors change nothing but colors. A report with colors and one without are the same text once
all sequences are deleted from both; if none of the texts they are made of has an escape character,
it is enough to delete them from the first. The reports come from one list of steps, in which each
color ends before the next one starts and before its line ends, and the colors are those of the
faults. In the mode `auto` the terminal decides which of the two reports is written. -/
theorem report?_strip (path source : String) (es : List ScanError) (terminal other : Bool) :
    let always := report? (Coloring.always.enabled terminal) path source es
    let never := report? (Coloring.never.enabled other) path source es
    always.map Paint.strip = never.map Paint.strip ∧
    ('\x1b' ∉ path.toList → '\x1b' ∉ source.toList →
      (∀ e ∈ es, ∀ w, e.fault = .invalidWord w → '\x1b' ∉ w.toList) →
      always.map Paint.strip = never) ∧
    (∀ colored, always = some colored → ∃ marks : List Mark,
      colored.toList = marks.flatMap (Mark.written true) ∧
      never.map String.toList = some (marks.flatMap (Mark.written false)) ∧
      Mark.closed false marks = true ∧
      marks.filterMap Mark.paint? = es.flatMap fun e => e.fault.paints) ∧
    report? (Coloring.auto.enabled terminal) path source es =
      if terminal then always else never := by
  intro always never
  have hauto : report? (Coloring.auto.enabled terminal) path source es =
      if terminal then always else never := by
    cases terminal <;> rfl
  have halways : always = _ := report?_eq true path source es
  have hnever : never = _ := report?_eq false path source es
  rw [halways, hnever] at hauto ⊢
  cases hds : es.mapM (ofError? path source) with
  | none =>
    rw [hds] at hauto
    exact ⟨rfl, fun _ _ _ => rfl, nofun, hauto⟩
  | some ds =>
    rw [hds] at hauto
    have hall := forall₂_of_mapM hds
    have hstrip := Piece.strip_renderAll
      (List.forall_mem_flatMap.2 fun d (_ : d ∈ ds) => d.isClear_of_mem_pieces)
    have hlines := List.forall_mem_flatMap.2 fun d (_ : d ∈ ds) => d.newline_not_mem_of_paint
    refine ⟨congrArg some hstrip, fun hpath hsource hwords => ?_, fun colored hcolored => ?_, hauto⟩
    · have hescape := escape_not_mem_of_forall₂ hall hpath hsource hwords
      exact congrArg some (hstrip.trans (Piece.strip_renderAll_of_not_mem hescape))
    · obtain rfl := Option.some.inj hcolored
      exact ⟨(ds.flatMap pieces).flatMap Piece.marks,
        (Piece.flatMap_written_flatMap_marks true _).symm,
        congrArg some (Piece.flatMap_written_flatMap_marks false _).symm,
        Piece.closed_flatMap_marks hlines,
        (Piece.filterMap_flatMap_marks _).trans (filterMap_paint_of_forall₂ hall)⟩

/-- Two errors in a row; and a path and a word that have a sequence and parts of some. -/
theorem report?_strip_parts :
    let es : List ScanError := [⟨.invalidWord "#", ⟨2, 3⟩⟩, ⟨.unexpectedEnd, ⟨1, 1⟩⟩]
    let colored :=
      "\x1b[1;31merror\x1b[0m: invalid token `#`\n" ++
      "  --> p:1:3\n" ++
      "\x1b[1;34m  |\x1b[0m\n" ++
      "\x1b[1;34m1 |\x1b[0m x #\n" ++
      "\x1b[1;34m  |\x1b[0m   \x1b[1;31m^\x1b[0m\n" ++
      "  = \x1b[1;32mhelp\x1b[0m: names must start with an ASCII letter\n" ++
      "\x1b[1;31merror\x1b[0m: unexpected end of input\n" ++
      "  --> p:1:2\n" ++
      "\x1b[1;34m  |\x1b[0m\n" ++
      "\x1b[1;34m1 |\x1b[0m x #\n" ++
      "\x1b[1;34m  |\x1b[0m  \x1b[1;31m^\x1b[0m\n" ++
      "  = note: this is a bug in the token reader, not in the input\n"
    let part : ScanError := ⟨.invalidWord "#\x1b[0m\x1b[0", ⟨0, 8⟩⟩
    ('\x1b' ∉ "p".toList ∧ '\x1b' ∉ "x #".toList ∧
      (∀ e ∈ es, ∀ w, e.fault = .invalidWord w → '\x1b' ∉ w.toList) ∧
      report? true "p" "x #" es = some colored ∧
      some (Paint.strip colored) = report? false "p" "x #" es ∧
      ∃ marks, colored.toList = marks.flatMap (Mark.written true) ∧ Mark.closed false marks = true ∧
        marks.filterMap Mark.paint? = [.error, .gutter, .gutter, .gutter, .error, .help,
          .error, .gutter, .gutter, .gutter, .error]) ∧
    (report? true "p\x1b[1;3" "#\x1b[0m\x1b[0\nm" [part]).map Paint.strip = some (
      "error: invalid token `#\x1b[0`\n" ++
      "  --> p\x1b[1;3:1:1\n" ++
      "  |\n" ++
      "1 | #\x1b[0\n" ++
      "  | ^^^^^^^^\n" ++
      "  = help: names must start with an ASCII letter\n") := by
  intro es colored part
  have hwords : ∀ e ∈ es, ∀ w, e.fault = .invalidWord w → '\x1b' ∉ w.toList := by
    simp only [es, List.forall_mem_cons]
    exact ⟨fun w hw => Fault.invalidWord.inj hw ▸ by decide, nofun, nofun⟩
  have hcolored : report? true "p" "x #" es = some colored := by
    dsimp only [es, colored]
    decide +kernel
  obtain ⟨-, hclean, hmarks, -⟩ := report?_strip "p" "x #" es true true
  obtain ⟨marks, hwritten, -, hclosed, hpaints⟩ := hmarks colored hcolored
  obtain ⟨hparts, -⟩ := report?_strip "p\x1b[1;3" "#\x1b[0m\x1b[0\nm" [part] true true
  have hstripped := hclean (by decide) (by decide) hwords
  refine ⟨⟨by decide, by decide, hwords, hcolored, ?_, marks, hwritten, hclosed, hpaints⟩,
    hparts.trans ?_⟩
  · exact (congrArg (Option.map Paint.strip) hcolored).symm.trans hstripped
  · decide +kernel

end Diagnostic
end TokenScan
