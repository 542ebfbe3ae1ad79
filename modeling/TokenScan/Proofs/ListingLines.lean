import TokenScan.Listing
import TokenScan.Proofs.NumberSpelling
import TokenScan.Proofs.Quoting

namespace TokenScan

open Text

/-- Not two different numbers that are none. -/
def SameNaN (t u : Token) : Prop :=
  ∀ x ∈ t.number?, ∀ y ∈ u.number?, x.isNaN = true → y.isNaN = true → x = y

instance (t u : Token) : Decidable (SameNaN t u) :=
  inferInstanceAs (Decidable (∀ x ∈ t.number?, ∀ y ∈ u.number?, _ → _ → x = y))

/-- At most one of the bit patterns that are no numbers. -/
def OneNaN (ts : List LocatedToken) : Prop := ∀ t ∈ ts, ∀ u ∈ ts, SameNaN t.token u.token

instance (ts : List LocatedToken) : Decidable (OneNaN ts) :=
  inferInstanceAs (Decidable (∀ t ∈ ts, ∀ u ∈ ts, SameNaN t.token u.token))

theorem toDigits_append_inj {m n : Nat} {c : Char} {x y : List Char} (hc : c.isDigit = false)
    (h : Nat.toDigits 10 m ++ c :: x = Nat.toDigits 10 n ++ c :: y) : m = n ∧ x = y := by
  obtain ⟨hdigits, hxy⟩ := append_cons_inj (not_mem_toDigits hc m) (not_mem_toDigits hc n) h
  have hread := congrArg (fun ds => Nat.ofDigitChars 10 ds 0) hdigits
  simp only [Nat.ofDigitChars_ten_toDigits] at hread
  exact ⟨hread, hxy⟩

theorem Span.toList_text (s : Span) :
    s.text.toList = Nat.toDigits 10 s.start ++ '.' :: '.' :: Nat.toDigits 10 s.stop := by
  rw [text, String.toList_append, String.toList_append, Nat.toString_eq_repr, Nat.toString_eq_repr,
    Nat.toList_repr, Nat.toList_repr, List.append_assoc]
  rfl

theorem Span.newline_not_mem_text (s : Span) : '\n' ∉ s.text.toList := by
  rw [toList_text]
  simp [not_mem_toDigits]

theorem Span.text_append_inj {s t : Span} {x y : List Char}
    (h : s.text.toList ++ '\n' :: x = t.text.toList ++ '\n' :: y) : s = t ∧ x = y := by
  obtain ⟨i, j⟩ := s
  obtain ⟨k, l⟩ := t
  rw [toList_text, toList_text, List.append_assoc, List.append_assoc] at h
  obtain ⟨rfl, hstop⟩ := toDigits_append_inj (by decide) h
  obtain ⟨rfl, hxy⟩ := toDigits_append_inj (by decide) (List.cons.inj hstop).2
  exact ⟨rfl, hxy⟩

namespace Token

theorem toList_bracketed (tag payload : String) :
    (tag ++ payload ++ ")").toList = tag.toList ++ (payload.toList ++ [')']) := by
  have hclosed : ")".toList = [')'] := String.toList_ofList
  rw [String.toList_append, String.toList_append, List.append_assoc, hclosed]

theorem toList_describe (t : Token) : t.describe.toList = match t with
    | symbol c => "Symbol(".toList ++ (quoteWith '\'' [c] ++ [')'])
    | stringLiteral s => "StringLiteral(".toList ++ (quoteWith '"' s.toList ++ [')'])
    | number x => "Number(".toList ++ ((x.text .detailed).toList ++ [')'])
    | name s => "Name(".toList ++ (quoteWith '"' s.toList ++ [')']) := by
  cases t with
  | symbol c =>
    change ("Symbol(" ++ quoteChar c ++ ")").toList = _
    rw [toList_bracketed, toList_quoteChar]
  | stringLiteral s =>
    change ("StringLiteral(" ++ quote s ++ ")").toList = _
    rw [toList_bracketed, toList_quote]
  | number x =>
    change ("Number(" ++ x.text .detailed ++ ")").toList = _
    rw [toList_bracketed]
  | name s =>
    change ("Name(" ++ quote s ++ ")").toList = _
    rw [toList_bracketed, toList_quote]

theorem newline_not_mem_describe (t : Token) : '\n' ∉ t.describe.toList := by
  rw [toList_describe]
  cases t with
  | symbol c => simp [newline_not_mem_quoteWith (.inr rfl)]
  | stringLiteral s => simp [newline_not_mem_quoteWith (.inl rfl)]
  | number x =>
    have hx : '\n' ∉ (x.text .detailed).toList := x.not_mem_text _ (by decide) (by decide)
    simp [hx]
  | name s => simp [newline_not_mem_quoteWith (.inl rfl)]

/-- What two descriptions of one kind have between their brackets. -/
theorem bracketed_inj {tag a b x y : List Char}
    (h : (tag ++ (a ++ [')'])) ++ x = (tag ++ (b ++ [')'])) ++ y) : a ++ ')' :: x = b ++ ')' :: y := by
  simpa using h

/-- A description tells where it ends and which token it is of. -/
theorem describe_append_inj {t u : Token} (hnan : SameNaN t u) {x y : List Char}
    (h : t.describe.toList ++ x = u.describe.toList ++ y) : t = u ∧ x = y := by
  rw [toList_describe, toList_describe] at h
  cases t with
  | symbol c =>
    cases u with
    | symbol d =>
      obtain ⟨hchar, hxy⟩ := quoteWith_append_inj (.inr rfl) (bracketed_inj h)
      rw [(List.cons.inj hchar).1]
      exact ⟨rfl, (List.cons.inj hxy).2⟩
    | stringLiteral _ | number _ | name _ => simp at h
  | stringLiteral s =>
    cases u with
    | stringLiteral s' =>
      obtain ⟨htext, hxy⟩ := quoteWith_append_inj (.inl rfl) (bracketed_inj h)
      rw [String.toList_injective htext]
      exact ⟨rfl, (List.cons.inj hxy).2⟩
    | symbol _ | number _ | name _ => simp at h
  | number v =>
    cases u with
    | number w =>
      have hparen (z : Binary64) : ')' ∉ (z.text .detailed).toList :=
        z.not_mem_text _ (by decide) (by decide)
      obtain ⟨htext, hxy⟩ := append_cons_inj (hparen v) (hparen w) (bracketed_inj h)
      rw [Binary64.eq_of_text_eq _ (hnan v rfl w rfl) (String.toList_injective htext)]
      exact ⟨rfl, hxy⟩
    | symbol _ | stringLiteral _ | name _ => simp at h
  | name s =>
    cases u with
    | name s' =>
      obtain ⟨htext, hxy⟩ := quoteWith_append_inj (.inl rfl) (bracketed_inj h)
      rw [String.toList_injective htext]
      exact ⟨rfl, (List.cons.inj hxy).2⟩
    | symbol _ | stringLiteral _ | number _ => simp at h

end Token

namespace Listing

theorem toList_line (t : LocatedToken) :
    (line t).toList =
      "  ".toList ++ (t.token.describe.toList ++ (" @ ".toList ++ (t.span.text.toList ++ ['\n']))) := by
  simp [line]

/-- A line without its end. -/
def row (t : LocatedToken) : String := "  " ++ t.token.describe ++ " @ " ++ t.span.text

theorem newline_not_mem_row (t : LocatedToken) : '\n' ∉ (row t).toList := by
  simp [row, t.token.newline_not_mem_describe, t.span.newline_not_mem_text]

theorem toList_line_eq_row (t : LocatedToken) : (line t).toList = (row t).toList ++ ['\n'] :=
  String.toList_append

theorem count_line (t : LocatedToken) : (line t).toList.count '\n' = 1 := by
  rw [toList_line_eq_row, List.count_append, List.count_eq_zero.2 (newline_not_mem_row t)]
  rfl

theorem exists_line (t : LocatedToken) :
    ∃ body : String, line t = body ++ "\n" ∧ '\n' ∉ body.toList :=
  ⟨row t, rfl, newline_not_mem_row t⟩

theorem line_append_inj {t u : LocatedToken} (hnan : SameNaN t.token u.token) {x y : List Char}
    (h : (line t).toList ++ x = (line u).toList ++ y) : t = u ∧ x = y := by
  obtain ⟨t, p⟩ := t
  obtain ⟨u, q⟩ := u
  rw [toList_line, toList_line] at h
  simp only [List.append_assoc] at h
  obtain ⟨rfl, hspan⟩ := Token.describe_append_inj hnan (List.append_cancel_left h)
  obtain ⟨rfl, hxy⟩ := Span.text_append_inj (List.append_cancel_left hspan)
  exact ⟨rfl, hxy⟩

theorem lines_inj {ts us : List LocatedToken}
    (hnan : ∀ t ∈ ts, ∀ u ∈ us, SameNaN t.token u.token)
    (h : ts.flatMap (fun t => (line t).toList) = us.flatMap (fun t => (line t).toList)) :
    ts = us := by
  induction ts generalizing us with
  | nil =>
    cases us with
    | nil => rfl
    | cons u us => simp [toList_line] at h
  | cons t ts ih =>
    cases us with
    | nil => simp [toList_line] at h
    | cons u us =>
      rw [List.flatMap_cons, List.flatMap_cons] at h
      obtain ⟨rfl, hrest⟩ := line_append_inj (hnan t (by simp) u (by simp)) h
      rw [ih (fun t ht u hu => hnan t (.tail _ ht) u (.tail _ hu)) hrest]

theorem toList_text (path : String) (ts : List LocatedToken) :
    (text path ts).toList =
      (heading path ts.length).toList ++ ts.flatMap fun t => (line t).toList := by
  rw [text, String.toList_append, String.toList_join, List.flatMap_map]

theorem toList_heading (path : String) (n : Nat) :
    (heading path n).toList = ("Tokens for '" ++ path ++ "' (").toList ++
      (Nat.toDigits 10 n ++ ' ' :: ['t', 'o', 'k', 'e', 'n', 's', ')', ':', '\n']) := by
  have htail : " tokens):\n".toList = ' ' :: ['t', 'o', 'k', 'e', 'n', 's', ')', ':', '\n'] :=
    String.toList_ofList
  unfold heading
  rw [Nat.toString_eq_repr, String.toList_append, String.toList_append, Nat.toList_repr,
    List.append_assoc, htail]

theorem count_heading (path : String) (n : Nat) :
    (heading path n).toList.count '\n' = path.toList.count '\n' + 1 := by
  have hdigits := List.count_eq_zero.2 (not_mem_toDigits (c := '\n') (by decide) n)
  rw [toList_heading, List.count_append, List.count_append, hdigits, Nat.zero_add,
    String.toList_append, String.toList_append, List.count_append, List.count_append]
  simp

theorem count_text (path : String) (ts : List LocatedToken) :
    (text path ts).toList.count '\n' = path.toList.count '\n' + (ts.length + 1) := by
  have hlines : (ts.flatMap fun t => (line t).toList).count '\n' = ts.length := by
    simp [List.count_flatMap, Function.comp_def, count_line]
  rw [toList_text, List.count_append, count_heading, hlines]
  omega

/-- A listing has one line for each of its tokens, behind the heading, and is a listing of no other
tokens, if of all that is no number the tokens hold one bit pattern. -/
theorem text_unambiguous (path : String) :
    (∀ ts : List LocatedToken,
      (text path ts).toList.count '\n' = path.toList.count '\n' + (ts.length + 1) ∧
      ∀ t ∈ ts, ∃ body : String, line t = body ++ "\n" ∧ '\n' ∉ body.toList) ∧
    ∀ ts us : List LocatedToken, OneNaN (ts ++ us) → text path ts = text path us → ts = us := by
  refine ⟨fun ts => ⟨count_text path ts, fun t _ => exists_line t⟩, fun ts us hnan h => ?_⟩
  have hchars := congrArg String.toList h
  rw [toList_text, toList_text, toList_heading, toList_heading, List.append_assoc,
    List.append_assoc, List.append_assoc, List.append_assoc] at hchars
  obtain ⟨-, hrest⟩ := toDigits_append_inj (by decide) (List.append_cancel_left hchars)
  exact lines_inj
    (fun t ht u hu => hnan t (List.mem_append_left us ht) u (List.mem_append_right ts hu))
    (List.append_cancel_left hrest)

/-- A text that would end its line and begin another. The tokens are those of their source. -/
theorem text_unambiguous_forged :
    let ts : List LocatedToken := [⟨.stringLiteral "a) @ 0..1\n  Name(b", ⟨0, 20⟩⟩,
      ⟨.symbol '=', ⟨21, 22⟩⟩, ⟨.number ⟨0x3FF8000000000000⟩, ⟨22, 25⟩⟩]
    let us := (locatedTokensOf "\"a) @ 0..1\n  Name(b\" =1.5").toOption.getD []
    OneNaN (ts ++ us) ∧ text "f" ts = text "f" us ∧ ts = us ∧ (text "f" us).toList.count '\n' = 4 := by
  intro ts us
  have hnan : OneNaN (ts ++ us) := by decide +kernel
  have htext : text "f" ts = text "f" us := by decide +kernel
  have hts : ts = us := (text_unambiguous "f").2 ts us hnan htext
  exact ⟨hnan, htext, hts, hts ▸ ((text_unambiguous "f").1 ts).1⟩

end Listing
end TokenScan
