import Mathlib.Data.List.Induction
import TokenScan.Proofs.LexCheck

namespace TokenScan

namespace Coloring

/-- The value of the flag that asks for a mode. -/
def word : Coloring → String
  | auto => "auto"
  | always => "always"
  | never => "never"

def words : List String := ["auto", "always", "never"]

theorem parse?_eq_some_iff {s : String} {m : Coloring} : parse? s = some m ↔ s = m.word := by
  constructor
  · intro h
    unfold parse? at h
    split at h <;> cases h <;> rfl
  · rintro rfl
    cases m <;> rfl

theorem word_injective : Function.Injective word := fun m n h => by
  have hm := parse?_eq_some_iff.2 (rfl : m.word = m.word)
  rw [h, parse?_eq_some_iff.2 rfl] at hm
  exact (Option.some.inj hm).symm

theorem mem_words_iff {s : String} : s ∈ words ↔ ∃ m : Coloring, s = m.word := by
  constructor
  · simp only [words, List.mem_cons, List.not_mem_nil, or_false]
    rintro (rfl | rfl | rfl)
    · exact ⟨auto, rfl⟩
    · exact ⟨always, rfl⟩
    · exact ⟨never, rfl⟩
  · rintro ⟨m, rfl⟩
    cases m <;> decide

theorem parse?_eq_none_iff {s : String} : parse? s = none ↔ s ∉ words := by
  simp only [mem_words_iff, not_exists, ← parse?_eq_some_iff, Option.eq_none_iff_forall_ne_some,
    ne_eq]

end Coloring

namespace Options

/-- The mode of the last color flag, or `auto` if there is none. -/
def AsksFor (args : List String) (color : Coloring) : Prop :=
  (∃ before after, args = before ++ ("--color=" ++ color.word) :: after ∧
    ∀ v, "--color=" ++ v ∉ after) ∨
  color = .auto ∧ ∀ v, "--color=" ++ v ∉ args

/-- A color flag whose value `v` is no mode, with no such flag `before` it. -/
structure FirstRefused (args before : List String) (v : String) : Prop where
  splits : ∃ after, args = before ++ ("--color=" ++ v) :: after
  refused : v ∉ Coloring.words
  accepted : ∀ w, "--color=" ++ w ∈ before → w ∈ Coloring.words

def isRefused (arg : String) : Bool := (colorValue? arg).any (· ∉ Coloring.words)

def pathOf (args : List String) : Option String := args.find? fun arg => !isFlag arg

/-- The arguments that are no color flags. -/
def others (args : List String) : List String :=
  args.filter fun arg => !"--color=".toList.isPrefixOf arg.toList

/-- The arguments that are neither a color flag nor the path. -/
def ignoredOf (args : List String) : List String := (others args).eraseP fun arg => !isFlag arg

section
variable {arg v : String} {args more : List String}

theorem colorValue?_eq_some_iff : colorValue? arg = some v ↔ arg = "--color=" ++ v := by
  rw [colorValue?, Option.map_eq_some_iff]
  constructor
  · rintro ⟨cs, hcs, rfl⟩
    rw [← String.ofList_toList (s := arg), ← List.isPrefixOf?_eq_some_iff_append_eq.1 hcs,
      String.ofList_append, String.ofList_toList]
  · rintro rfl
    exact ⟨v.toList, List.isPrefixOf?_eq_some_iff_append_eq.2 String.toList_append.symm,
      String.ofList_toList⟩

theorem colorValue?_eq_none_iff : colorValue? arg = none ↔ ∀ v, arg ≠ "--color=" ++ v := by
  simp only [Option.eq_none_iff_forall_ne_some, ne_eq, colorValue?_eq_some_iff]

theorem isPrefixOf_eq_isSome (arg : String) :
    "--color=".toList.isPrefixOf arg.toList = (colorValue? arg).isSome := by
  rw [colorValue?, Option.isSome_map, List.isSome_isPrefixOf?_eq_isPrefixOf]

theorem isFlag_color (v : String) : isFlag ("--color=" ++ v) = true := by
  simp [isFlag]

theorem others_append_flag : others (args ++ ["--color=" ++ v]) = others args := by
  have hflag := isPrefixOf_eq_isSome ("--color=" ++ v)
  rw [colorValue?_eq_some_iff.2 rfl] at hflag
  rw [others, List.filter_append, List.filter_singleton, hflag]
  exact List.append_nil _

theorem others_append_of_none (h : colorValue? arg = none) :
    others (args ++ [arg]) = others args ++ [arg] := by
  have hother := isPrefixOf_eq_isSome arg
  rw [h] at hother
  rw [others, List.filter_append, List.filter_singleton, hother]
  rfl

theorem mem_others_iff : arg ∈ others args ↔ arg ∈ args ∧ colorValue? arg = none := by
  rw [others, List.mem_filter, isPrefixOf_eq_isSome, Bool.not_eq_true', Option.isSome_eq_false_iff,
    Option.isNone_iff_eq_none]

theorem any_others : (others args).any (fun arg => !isFlag arg) = (pathOf args).isSome := by
  rw [Bool.eq_iff_iff, List.any_eq_true, pathOf, List.find?_isSome]
  constructor
  · rintro ⟨arg, harg, hflag⟩
    exact ⟨arg, (mem_others_iff.1 harg).1, hflag⟩
  · rintro ⟨arg, harg, hflag⟩
    refine ⟨arg, mem_others_iff.2 ⟨harg, colorValue?_eq_none_iff.2 fun v hv => ?_⟩, hflag⟩
    rw [hv, isFlag_color] at hflag
    cases hflag

theorem pathOf_append (args : List String) (arg : String) :
    pathOf (args ++ [arg]) = (pathOf args).or (if isFlag arg then none else some arg) := by
  rw [pathOf, List.find?_append, pathOf]
  cases hflag : isFlag arg <;> simp [hflag]

theorem ignoredOf_append_flag : ignoredOf (args ++ ["--color=" ++ v]) = ignoredOf args := by
  rw [ignoredOf, others_append_flag, ignoredOf]

theorem ignoredOf_append_other (h : colorValue? arg = none) :
    ignoredOf (args ++ [arg]) =
      ignoredOf args ++ if isFlag arg || (pathOf args).isSome then [arg] else [] := by
  rw [ignoredOf, others_append_of_none h, List.eraseP_append, any_others, ignoredOf]
  cases hpath : (pathOf args).isSome with
  | true => simp
  | false =>
    -- no path is among them yet, so none has been taken out
    have hnone : ∀ other ∈ others args, ¬ (!isFlag other) = true :=
      List.any_eq_false.1 (any_others.trans hpath)
    rw [List.eraseP_of_forall_not hnone]
    cases hflag : isFlag arg <;> simp [hflag]

end

section
variable {o p : Options} {arg v : String} {args more : List String}

theorem readOnto_append (o : Options) (args more : List String) :
    readOnto o (args ++ more) = (readOnto o args).bind (readOnto · more) := by
  fun_induction readOnto o args with
  | case1 o => rfl
  | case2 o arg args v hvalue m hm ih =>
    rw [← ih, List.cons_append, readOnto, hvalue]
    dsimp only
    rw [hm]
  | case3 o arg args v hvalue hv =>
    rw [List.cons_append, readOnto, hvalue]
    dsimp only
    rw [hv]
    rfl
  | case4 o arg args hvalue hignored ih =>
    rw [← ih, List.cons_append, readOnto, hvalue]
    exact if_pos hignored
  | case5 o arg args hvalue hpath ih =>
    rw [← ih, List.cons_append, readOnto, hvalue]
    exact if_neg hpath

theorem readOnto_flag (m : Coloring) (args : List String) :
    readOnto o (("--color=" ++ m.word) :: args) = readOnto { o with color := m } args := by
  rw [readOnto, colorValue?_eq_some_iff.2 rfl]
  dsimp only
  rw [Coloring.parse?_eq_some_iff.2 rfl]

theorem readOnto_refused (h : v ∉ Coloring.words) (args : List String) :
    readOnto o (("--color=" ++ v) :: args) = .error ⟨v, o.ignored⟩ := by
  rw [readOnto, colorValue?_eq_some_iff.2 rfl]
  dsimp only
  rw [Coloring.parse?_eq_none_iff.2 h]

theorem readOnto_other (h : colorValue? arg = none) (args : List String) :
    readOnto o (arg :: args) =
      if isFlag arg || o.path.isSome then readOnto { o with ignored := o.ignored ++ [arg] } args
      else readOnto { o with path := some arg } args := by
  rw [readOnto, h]

theorem AsksFor.append_flag (args : List String) (m : Coloring) :
    AsksFor (args ++ ["--color=" ++ m.word]) m :=
  .inl ⟨args, [], rfl, fun _ => List.not_mem_nil⟩

theorem AsksFor.append_other {color : Coloring} (h : AsksFor args color)
    (hother : colorValue? arg = none) : AsksFor (args ++ [arg]) color := by
  have hne (v : String) : "--color=" ++ v ∉ [arg] := fun hv =>
    colorValue?_eq_none_iff.1 hother v (List.mem_singleton.1 hv).symm
  obtain ⟨before, after, rfl, hafter⟩ | ⟨rfl, hargs⟩ := h
  · have hargs := List.append_assoc before (("--color=" ++ color.word) :: after) [arg]
    refine .inl ⟨before, after ++ [arg], hargs, fun v hv => ?_⟩
    exact (List.mem_append.1 hv).elim (hafter v) (hne v)
  · exact .inr ⟨rfl, fun v hv => (List.mem_append.1 hv).elim (hargs v) (hne v)⟩

theorem value_of_last {after more after' : List String} {w : String}
    (h : ("--color=" ++ v) :: after = more ++ ("--color=" ++ w) :: after')
    (hafter : ∀ u, "--color=" ++ u ∉ after) : v = w := by
  cases more with
  | nil => exact (String.append_right_inj _).1 (List.cons.inj h).1
  | cons arg more =>
    exact absurd (List.mem_append_right _ List.mem_cons_self) ((List.cons.inj h).2 ▸ hafter w)

theorem AsksFor.unique {color color' : Coloring} (h : AsksFor args color)
    (h' : AsksFor args color') : color = color' := by
  obtain ⟨before, after, rfl, hafter⟩ | ⟨rfl, hargs⟩ := h
  · obtain ⟨before', after', hargs, hafter'⟩ | ⟨-, hargs⟩ := h'
    · obtain ⟨more, -, hmore⟩ | ⟨more, -, hmore⟩ := List.append_eq_append_iff.1 hargs
      · exact Coloring.word_injective (value_of_last hmore hafter)
      · exact (Coloring.word_injective (value_of_last hmore hafter')).symm
    · exact absurd (List.mem_append_right _ List.mem_cons_self) (hargs _)
  · obtain ⟨before', after', rfl, -⟩ | ⟨rfl, -⟩ := h'
    · exact absurd (List.mem_append_right _ List.mem_cons_self) (hargs _)
    · rfl

/-- By what one more argument at the end adds: a mode, the path, or a warning. -/
theorem read_eq_ok (h : ∀ v, "--color=" ++ v ∈ args → v ∈ Coloring.words) :
    ∃ color, AsksFor args color ∧ read args = .ok ⟨color, pathOf args, ignoredOf args⟩ := by
  induction args using List.reverseRecOn with
  | nil => exact ⟨.auto, .inr ⟨rfl, fun _ => List.not_mem_nil⟩, rfl⟩
  | append_singleton args arg ih =>
    obtain ⟨color, hcolor, hread⟩ := ih fun v hv => h v (List.mem_append_left _ hv)
    cases hvalue : colorValue? arg with
    | some v =>
      obtain rfl := colorValue?_eq_some_iff.1 hvalue
      obtain ⟨m, rfl⟩ := Coloring.mem_words_iff.1 (h v (List.mem_append_right _ List.mem_cons_self))
      refine ⟨m, .append_flag args m, ?_⟩
      rw [read] at hread ⊢
      rw [readOnto_append, hread, Except.bind, readOnto_flag, pathOf_append, isFlag_color,
        if_pos rfl, Option.or_none, ignoredOf_append_flag]
      rfl
    | none =>
      refine ⟨color, hcolor.append_other hvalue, ?_⟩
      rw [read] at hread ⊢
      rw [readOnto_append, hread, Except.bind, readOnto_other hvalue, pathOf_append,
        ignoredOf_append_other hvalue]
      cases hpath : pathOf args <;> cases hflag : isFlag arg <;> simp [readOnto]

theorem FirstRefused.read_eq {before : List String} (h : FirstRefused args before v) :
    read args = .error ⟨v, ignoredOf before⟩ := by
  obtain ⟨after, rfl⟩ := h.splits
  obtain ⟨color, -, hread⟩ := read_eq_ok h.accepted
  rw [read] at hread ⊢
  rw [readOnto_append, hread, Except.bind, readOnto_refused h.refused]

theorem mem_words_of_all (h : args.all fun arg => (colorValue? arg).all (· ∈ Coloring.words))
    (v : String) (hv : "--color=" ++ v ∈ args) : v ∈ Coloring.words := by
  have hall := List.all_eq_true.1 h _ hv
  rw [colorValue?_eq_some_iff.2 rfl] at hall
  exact of_decide_eq_true hall

theorem isRefused_color (v : String) :
    isRefused ("--color=" ++ v) = decide (v ∉ Coloring.words) := by
  rw [isRefused, colorValue?_eq_some_iff.2 rfl, Option.any_some]

theorem exists_firstRefused (h : ∃ v, "--color=" ++ v ∈ args ∧ v ∉ Coloring.words) :
    ∃ before v, FirstRefused args before v := by
  obtain ⟨v, hmem, hv⟩ := h
  have hfound : (args.find? isRefused).isSome :=
    List.find?_isSome.2 ⟨_, hmem, (isRefused_color v).trans (decide_eq_true hv)⟩
  obtain ⟨arg, harg⟩ := Option.isSome_iff_exists.1 hfound
  obtain ⟨hfirst, before, after, hargs, hbefore⟩ := List.find?_eq_some_iff_append.1 harg
  obtain ⟨w, hw, hword⟩ := (Option.any_eq_true _ _).1 hfirst
  obtain rfl := colorValue?_eq_some_iff.1 hw
  refine ⟨before, w, ⟨after, hargs⟩, of_decide_eq_true hword, fun u hu => ?_⟩
  have hvalid := hbefore _ hu
  rw [isRefused_color] at hvalid
  simpa using hvalid

theorem readOnto_swap (o : Options) (m : Coloring) (hother : colorValue? arg = none)
    (before after : List String) :
    readOnto o (before ++ ("--color=" ++ m.word) :: arg :: after) =
      readOnto o (before ++ arg :: ("--color=" ++ m.word) :: after) := by
  rw [readOnto_append, readOnto_append]
  congr 1
  funext p
  rw [readOnto_flag, readOnto_other hother, readOnto_other hother]
  split <;> rw [readOnto_flag]

end

end Options

open Options (AsksFor FirstRefused pathOf ignoredOf)

namespace Task

/-- What the arguments of a command do. Which of them are flags, and which is the path, can be told
without their order but for the last color flag and the first path. -/
structure ArgumentsDecide (read : String → Except ReadError String) (terminal : Bool)
    (logging : Option Logging) (args : List String) (t : Task) : Prop where
  exists_refused (h : ∃ v, "--color=" ++ v ∈ args ∧ v ∉ Coloring.words) :
    ∃ before v, FirstRefused args before v
  refused {before : List String} {v : String} (h : FirstRefused args before v) :
    t.outcome read terminal args logging = ⟨"", Command.warningText (ignoredOf before) ++
      String.join ["error: invalid --color value '" ++ v ++ "'\n",
        "Expected one of: auto, always, never\n"], 1, false⟩
  exists_asksFor (h : ∀ v, "--color=" ++ v ∈ args → v ∈ Coloring.words) :
    ∃ color, AsksFor args color
  pathless (h : ∀ v, "--color=" ++ v ∈ args → v ∈ Coloring.words) (hpath : pathOf args = none) :
    t.outcome read terminal args logging = ⟨"", Command.warningText (ignoredOf args) ++
      String.join ["error: missing file path\n",
        "Usage: mathlang " ++ t.name ++ " <file> [--color=auto|always|never]\n"], 1, false⟩
  unread (h : ∀ v, "--color=" ++ v ∈ args → v ∈ Coloring.words) {path : String} {e : ReadError}
      (hpath : pathOf args = some path) (hread : read path = .error e) :
    t.outcome read terminal args logging = ⟨"", Command.warningText (ignoredOf args) ++
      String.join [e.message path ++ "\n"], 1, false⟩
  text (h : ∀ v, "--color=" ++ v ∈ args → v ∈ Coloring.words) {path source : String}
      (hpath : pathOf args = some path) (hread : read path = .ok source) {color : Coloring}
      (hcolor : AsksFor args color) :
    let told := (t.run (color.enabled terminal) path source).outcome logging
    t.outcome read terminal args logging =
      { told with stderr := Command.warningText (ignoredOf args) ++ told.stderr }
  swap (before : List String) (v arg : String) (after : List String)
      (hargs : args = before ++ ("--color=" ++ v) :: arg :: after) (hv : v ∈ Coloring.words)
      (harg : ∀ w, arg ≠ "--color=" ++ w) :
    t.invoke read terminal args =
      t.invoke read terminal (before ++ arg :: ("--color=" ++ v) :: after)

/-- The first color flag whose value is no mode decides alone, with a path or without. Else the
command runs in the mode of the last color flag on the first argument that does not begin with a
dash. All other arguments are warned of in their order; up to the flag, if one is refused. A flag
for a mode can change places with a neighbour that is no color flag. -/
theorem invoke_arguments (read : String → Except ReadError String) (terminal : Bool)
    (logging : Option Logging) (args : List String) (t : Task) :
    ArgumentsDecide read terminal logging args t where
  exists_refused := Options.exists_firstRefused
  refused h := outcome_refused terminal logging h.read_eq t
  exists_asksFor h := by
    obtain ⟨color, hcolor, -⟩ := Options.read_eq_ok h
    exact ⟨color, hcolor⟩
  pathless h hpath := by
    obtain ⟨color, -, hargs⟩ := Options.read_eq_ok h
    exact outcome_pathless terminal logging hargs hpath t
  unread h path e hpath hread := by
    obtain ⟨color, -, hargs⟩ := Options.read_eq_ok h
    exact outcome_unread terminal logging hargs hpath hread t
  text h path source hpath hread color hcolor := by
    obtain ⟨color', hcolor', hargs⟩ := Options.read_eq_ok h
    obtain rfl := hcolor.unique hcolor'
    rw [outcome, invoke_text terminal ⟨hargs, hpath, hread⟩]
    exact Command.outcome_warnings ..
  swap := by
    rintro before v arg after rfl hv harg
    obtain ⟨m, rfl⟩ := Coloring.mem_words_iff.1 hv
    have hother := Options.colorValue?_eq_none_iff.2 harg
    have hswap := Options.readOnto_swap .empty m hother before after
    rw [invoke_eq, Options.read, hswap, ← Options.read, ← invoke_eq]

/-- Two flags that are refused behind a path; near misses of a flag among valid ones; no path. -/
theorem invoke_arguments_near_misses :
    let read : String → Except ReadError String := fun path =>
      if path = "f" then .ok "x #" else .error .missing
    let refused := ["-", "--color=never", "f", "g", "--color=", "--color=red"]
    let valid := ["--color=never", "--color", "f", "", "--color=always"]
    let told := (Task.check.run true "f" "x #").outcome none
    FirstRefused refused ["-", "--color=never", "f", "g"] "" ∧
      Task.lex.outcome read false refused (some ⟨.standard, "trace", fun _ => ""⟩) =
        ⟨"", "warning: ignoring argument '-'\nwarning: ignoring argument 'g'\n" ++
          "error: invalid --color value ''\nExpected one of: auto, always, never\n", 1, false⟩ ∧
    (∀ v, "--color=" ++ v ∈ valid → v ∈ Coloring.words) ∧ AsksFor valid .always ∧
      Task.check.outcome read false valid none =
        { told with stderr :=
          "warning: ignoring argument '--color'\nwarning: ignoring argument ''\n" ++
            told.stderr } ∧
    (Task.lex.outcome read false ["-", "--color=auto"] none).code = 1 ∧
    Task.lex.invoke read false ["--color=never", "f"] =
      Task.lex.invoke read false ["f", "--color=never"] := by
  intro read refused valid told
  have hrefused : FirstRefused refused ["-", "--color=never", "f", "g"] "" :=
    ⟨⟨["--color=red"], by decide +kernel⟩, by decide,
      Options.mem_words_of_all (by decide +kernel)⟩
  have hvalid : ∀ v, "--color=" ++ v ∈ valid → v ∈ Coloring.words :=
    Options.mem_words_of_all (by decide +kernel)
  have hpathless : ∀ v, "--color=" ++ v ∈ ["-", "--color=auto"] → v ∈ Coloring.words :=
    Options.mem_words_of_all (by decide +kernel)
  have hcolor : AsksFor valid .always :=
    AsksFor.append_flag ["--color=never", "--color", "f", ""] .always
  have hother : ∀ w, "f" ≠ "--color=" ++ w := Options.colorValue?_eq_none_iff.1 (by decide +kernel)
  have hfirst := (invoke_arguments read false (some ⟨.standard, "trace", fun _ => ""⟩) refused
    .lex).refused hrefused
  have hpath : pathOf valid = some "f" := by decide +kernel
  have htold := (invoke_arguments read false none valid .check).text hvalid hpath rfl hcolor
  have hnone := (invoke_arguments read false none ["-", "--color=auto"] .lex).pathless hpathless
    (by decide +kernel)
  have hswap := (invoke_arguments read false none ["--color=never", "f"] .lex).swap [] "never" "f"
    [] (by decide +kernel) (by decide) hother
  have hwarned : Command.warningText (ignoredOf valid) =
      "warning: ignoring argument '--color'\nwarning: ignoring argument ''\n" := by decide +kernel
  rw [hwarned] at htold
  exact ⟨hrefused, hfirst.trans (by decide +kernel), hvalid, hcolor, htold,
    congrArg Outcome.code hnone, hswap⟩

end Task
end TokenScan
