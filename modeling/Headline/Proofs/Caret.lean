import Headline.Proofs.Blame
import Headline.Proofs.NormalWords
import Headline.Report.Results

/-!
# The caret under a rejected query

A rejected query is shown on three lines: the wording, the query, and a caret under what is to
blame. The lines hold together because nothing in them breaks a line. A wording is printable, with
the spelling that it quotes escaped (`printable_message`), and a query in normal form has no
blanks but spaces. The caret stands under the first character of the token that the fault blames,
which stands in the query (`exists_head_of_parse_error`), so its column is never cut off.
-/

namespace Headline

namespace Text

/-! ## Lines -/

/-- The characters that break a line. -/
def lineBreaks : List Nat := [0x0A, 0x0B, 0x0C, 0x0D, 0x1C, 0x1D, 0x1E, 0x85, 0x2028, 0x2029]

/-- Whether a character breaks a line. -/
def breaksLine (c : Char) : Bool := lineBreaks.contains c.toNat

/-- The lines of a text, without what breaks them. A carriage return and the line feed behind it are
one break. -/
def lines : Text → List Text
  | [] => []
  | '\r' :: '\n' :: s => [] :: lines s
  | c :: s =>
    if breaksLine c then [] :: lines s
    else
      match lines s with
      | [] => [[c]]
      | line :: rest => (c :: line) :: rest

theorem lines_cons {c : Char} (hc : breaksLine c = false) (s : Text) :
    lines (c :: s) = (c :: (lines s).head?.getD []) :: (lines s).tail := by
  have hne : c ≠ '\r' := by rintro rfl; cases hc
  rw [lines]
  · rw [if_neg (by rw [hc]; exact Bool.false_ne_true)]
    cases lines s <;> rfl
  · rintro - rfl
    exact absurd rfl hne

/-- A line that is not the last one. -/
theorem lines_append_newline {line : Text} (h : ∀ c ∈ line, breaksLine c = false) (s : Text) :
    lines (line ++ '\n' :: s) = line :: lines s := by
  induction line with
  | nil => rfl
  | cons c line ih =>
    obtain ⟨hc, h⟩ := List.forall_mem_cons.1 h
    rw [List.cons_append, lines_cons hc, ih h]
    rfl

/-- The last line. -/
theorem lines_of_unbroken {line : Text} (hne : line ≠ []) (h : ∀ c ∈ line, breaksLine c = false) :
    lines line = [line] := by
  induction line with
  | nil => exact absurd rfl hne
  | cons c line ih =>
    obtain ⟨hc, h⟩ := List.forall_mem_cons.1 h
    rw [lines_cons hc]
    by_cases hline : line = []
    · subst hline
      rfl
    · rw [ih hline h]
      rfl

/-- Line ends of several kinds, two of which make one. -/
example : lines "a\r\nb\u2028\n".toList = ["a".toList, "b".toList, []] := by decide +kernel

/-! ## Printable texts -/

/-- Of the ASCII characters, those from the space to the tilde are printable. -/
theorem isPrintable_of_ascii {c : Char} (hlow : 32 ≤ c.toNat) (hhigh : c.toNat < 127) :
    isPrintable c := by
  have hruns : ∀ run ∈ unprintableLow, run.2 < 32 ∨ 127 ≤ run.1 := by decide +kernel
  have hlisted : unprintableNear c.toNat = unprintableLow := if_pos (by omega)
  rw [isPrintable, hlisted, Bool.not_eq_true', List.any_eq_false]
  intro run hrun h
  rw [Bool.and_eq_true, decide_eq_true_eq, decide_eq_true_eq] at h
  have := hruns run hrun
  omega

/-- A text of such characters. -/
def isPlain (s : Text) : Bool := s.all fun c => 32 ≤ c.toNat && c.toNat < 127

theorem printable_of_isPlain {s : Text} (h : isPlain s) : s.all isPrintable := by
  refine List.all_eq_true.2 fun c hc => ?_
  have hascii := List.all_eq_true.1 h c hc
  rw [Bool.and_eq_true, decide_eq_true_eq, decide_eq_true_eq] at hascii
  exact isPrintable_of_ascii hascii.1 hascii.2

theorem printable_append {s t : Text} (hs : s.all isPrintable) (ht : t.all isPrintable) :
    (s ++ t).all isPrintable := by
  rw [List.all_append, hs, ht]
  rfl

theorem printable_ofNat (n : Nat) : (ofNat n).all isPrintable := by
  refine List.all_eq_true.2 fun c hc => ?_
  have hdigit : c.isDigit := Nat.isDigit_of_mem_toDigits (by decide) (by decide) hc
  obtain ⟨hlow, hhigh⟩ : 48 ≤ c.toNat ∧ c.toNat ≤ 57 := Char.isDigit_iff_toNat.1 hdigit
  exact isPrintable_of_ascii (by omega) (by omega)

theorem printable_ofInt (n : Int) : (ofInt n).all isPrintable := by
  cases n with
  | ofNat n => exact printable_ofNat n
  | negSucc n =>
    have hminus : isPrintable '-' := isPrintable_of_ascii (by decide) (by decide)
    rw [ofInt, List.all_cons, hminus, printable_ofNat]
    rfl

theorem printable_hexDigits (width n : Nat) : (hexDigits width n).all isPrintable := by
  have hascii : ∀ d < 16, 32 ≤ (Nat.digitChar d).toNat ∧ (Nat.digitChar d).toNat < 127 := by decide
  induction width generalizing n with
  | zero => rfl
  | succ width ih =>
    obtain ⟨hlow, hhigh⟩ := hascii (n % 16) (Nat.mod_lt n (by decide))
    rw [hexDigits, List.all_append, ih, List.all_cons, isPrintable_of_ascii hlow hhigh]
    rfl

theorem isPrintable_backslash : isPrintable '\\' := isPrintable_of_ascii (by decide) (by decide)

theorem printable_numericEscape (c : Char) : (numericEscape c).all isPrintable := by
  have hx : isPrintable 'x' := isPrintable_of_ascii (by decide) (by decide)
  have hu : isPrintable 'u' := isPrintable_of_ascii (by decide) (by decide)
  have hU : isPrintable 'U' := isPrintable_of_ascii (by decide) (by decide)
  unfold numericEscape
  split
  · simp [isPrintable_backslash, hx, printable_hexDigits]
  · split <;> simp [isPrintable_backslash, hu, hU, printable_hexDigits]

/-- What does not show as itself is escaped. -/
theorem printable_escapeChar {quote : Char} (hquote : isPrintable quote) (c : Char) :
    (escapeChar quote c).all isPrintable := by
  have ht : isPrintable 't' := isPrintable_of_ascii (by decide) (by decide)
  have hn : isPrintable 'n' := isPrintable_of_ascii (by decide) (by decide)
  have hr : isPrintable 'r' := isPrintable_of_ascii (by decide) (by decide)
  unfold escapeChar
  split
  · next h => rcases h with rfl | rfl <;> simp [isPrintable_backslash, hquote]
  · repeat' split
    · simp [isPrintable_backslash, ht]
    · simp [isPrintable_backslash, hn]
    · simp [isPrintable_backslash, hr]
    · next h => simp [h]
    · exact printable_numericEscape c

theorem printable_quoted (s : Text) : s.quoted.all isPrintable := by
  have hquote : isPrintable (quoteFor s) := by
    unfold quoteFor
    split <;> exact isPrintable_of_ascii (by decide) (by decide)
  have hinside : (s.flatMap (escapeChar (quoteFor s))).all isPrintable := by
    rw [List.all_flatMap]
    exact List.all_eq_true.2 fun c _ => printable_escapeChar hquote c
  rw [quoted, List.all_append, List.all_cons, hquote, hinside, List.all_cons, hquote]
  rfl

/-! ## What breaks no line -/

/-- Only unprintable characters break a line. -/
theorem breaksLine_of_isPrintable {c : Char} (h : isPrintable c) : breaksLine c = false := by
  have hbreaks : ∀ n ∈ lineBreaks, (unprintableNear n).any fun run => run.1 ≤ n && n ≤ run.2 := by
    decide +kernel
  rw [← Bool.not_eq_true, breaksLine, List.contains_iff_mem]
  intro hc
  rw [isPrintable, hbreaks _ hc] at h
  cases h

theorem unbroken_of_printable {s : Text} (h : s.all isPrintable) :
    ∀ c ∈ s, breaksLine c = false :=
  fun c hc => breaksLine_of_isPrintable (List.all_eq_true.1 h c hc)

/-- Of the blanks, a space breaks no line. -/
theorem breaksLine_of_not_blank {c : Char} (h : isBlank c = false ∨ c = ' ') :
    breaksLine c = false := by
  rw [← Bool.not_eq_true, breaksLine, List.contains_iff_mem]
  intro hc
  rcases h with h | rfl
  · rw [lineBreaks] at hc
    simp only [List.mem_cons, List.not_mem_nil, or_false] at hc
    rcases hc with hc | hc | hc | hc | hc | hc | hc | hc | hc | hc <;>
      · rw [isBlank, hc] at h
        exact absurd h (by decide)
  · exact absurd hc (by decide)

theorem Spaced.breaksLine {s : Text} (hs : Spaced s) : ∀ c ∈ s, breaksLine c = false := by
  intro c hc
  have hspace := List.all_eq_true.1 hs.space c hc
  rw [Bool.or_eq_true, Bool.not_eq_true', beq_iff_eq] at hspace
  exact breaksLine_of_not_blank hspace

/-- Without a word there is no blank either. -/
theorem Spaced.eq_nil_iff {s : Text} (hs : Spaced s) : s = [] ↔ ∀ c ∈ s, isBlank c := by
  cases s with
  | nil => simp
  | cons c s =>
    have hc : (!isBlank c) = true := hs.first
    rw [Bool.not_eq_true'] at hc
    simp [hc]

end Text

namespace Query

/-! ## Wordings -/

/-- What wordings are made of, next to what they quote. -/
def fixedParts : List String :=
  ["Query is empty", "Unmatched ')'", "Unmatched '('", "Parentheses nested deeper than ", " levels",
    "'-' must be directly followed by a term", "Empty group '()'", "Unclosed '('",
    "Expected a term after ", "Operator ", " is missing an operand", "Unexpected "]

/-- A wording is printable, whatever it quotes. -/
theorem printable_message (f : Fault) : f.message.all isPrintable := by
  -- the fixed parts of the wordings are plain, and names and numbers are written out in plain text
  have hplain : ∀ part ∈ fixedParts, Text.isPlain part.toList := by decide +kernel
  have hfixed : ∀ part ∈ fixedParts, part.toList.all isPrintable :=
    fun part h => Text.printable_of_isPlain (hplain part h)
  simp only [fixedParts, List.forall_mem_cons, List.not_mem_nil, false_imp_iff, implies_true,
    and_true] at hfixed
  obtain ⟨hempty, hclosing, hopening, hdeeper, hlevels, hdangling, hgroup, hunclosed, hexpected,
    hoperator, hmissing, hunexpected⟩ := hfixed
  cases f with
  | empty => exact hempty
  | unmatchedClosing p => exact hclosing
  | unmatchedOpening p => exact hopening
  | tooDeep limit p =>
    exact Text.printable_append (Text.printable_append hdeeper (Text.printable_ofInt limit)) hlevels
  | danglingNot p => exact hdangling
  | emptyGroup p => exact hgroup
  | unclosed p => exact hunclosed
  | expectedTerm t => exact Text.printable_append hexpected (Text.printable_quoted t.spelling)
  | missingOperand t =>
    exact Text.printable_append
      (Text.printable_append hoperator (Text.printable_quoted t.spelling)) hmissing
  | unexpected t => exact Text.printable_append hunexpected (Text.printable_quoted t.spelling)

/-! ## The blamed token -/

section Blamed

variable {q : Text} {limit : Int} {ts : List Token} {f : Fault}

theorem spelling_of_scans {previous : Option Char} {position : Nat} {opened : List Nat} {s : Text}
    (h : Scans limit previous position opened s ts) :
    ∀ t ∈ ts, (t.kind = .opening → t.spelling = ['(']) ∧ (t.kind = .not → t.spelling = ['-']) := by
  induction h with
  | done => simp
  | blank hc h ih => exact ih
  | opening hdepth h ih => exact List.forall_mem_cons.2 ⟨by simp, ih⟩
  | closing h ih => exact List.forall_mem_cons.2 ⟨by simp, ih⟩
  | negation hprevious hnext h ih => exact List.forall_mem_cons.2 ⟨by simp, ih⟩
  | @word _ _ _ c run _ _ hc hrun hs hhyphen h ih =>
    refine List.forall_mem_cons.2 ⟨⟨fun hk => absurd hk (ofWord_ne_opening _), fun hk => ?_⟩, ih⟩
    rcases ofWord_cases (c :: run) with hk' | hk' | hk' <;> cases hk'.symm.trans hk

/-- What a fault blames is one of the tokens. -/
theorem Blames.exists_token (h : Blames ts f) (hts : tokenize q limit = .ok ts) :
    ∃ t ∈ ts, t.position = f.position ∧ t.spelling = f.blamed := by
  have hspelling := spelling_of_scans (scans_of_scan hts)
  cases h with
  | @emptyGroup l r hl hr h =>
    have hmem : l ∈ ts := h.subset (List.mem_cons_self ..)
    exact ⟨l, hmem, rfl, (hspelling l hmem).1 hl⟩
  | @danglingNot n o hn ho h =>
    have hmem : n ∈ ts := h.subset (List.mem_cons_self ..)
    exact ⟨n, hmem, rfl, (hspelling n hmem).2 hn⟩
  | missingOperand ho h | expectedTerm ho h => exact ⟨_, h, rfl, rfl⟩

/-- A token stands in the query, and does not begin with a blank. -/
theorem exists_head_of_mem (hts : tokenize q limit = .ok ts) {t : Token} (ht : t ∈ ts) :
    ∃ c, t.spelling.head? = some c ∧ q[t.position]? = some c ∧ isBlank c = false ∧
      t.spelling <+: q.drop t.position := by
  have htiles := tiles_of_scans (scans_of_scan hts)
  obtain ⟨c, w, hw⟩ := List.exists_cons_of_ne_nil (htiles.spelling_ne_nil t ht)
  have hprefix : t.spelling <+: q.drop t.position := by
    rw [← htiles.take_drop_position t ht]
    exact List.take_prefix _ _
  refine ⟨c, by rw [hw]; rfl, ?_, ?_, hprefix⟩
  · obtain ⟨rest, hrest⟩ := hprefix
    rw [← List.head?_drop, ← hrest, hw]
    rfl
  -- the characters of the tokens are those of the query, blanks aside
  · have hmem : c ∈ Text.dropBlanks q := by
      rw [← htiles.flatMap_spelling]
      exact List.mem_flatMap.2 ⟨t, ht, by rw [hw]; exact List.mem_cons_self ..⟩
    simpa using (List.mem_filter.1 hmem).2

/-- Behind the lexer only tokens are blamed, unless the query is empty. -/
theorem exists_token_of_parse_error (h : parse q limit = .error f) (hne : f ≠ .empty)
    (hts : tokenize q limit = .ok ts) :
    ∃ t ∈ ts, t.position = f.position ∧ t.spelling = f.blamed := by
  rcases parse_eq_error_iff.1 h with h | ⟨us, hus, h⟩
  · cases hts.symm.trans h
  · obtain rfl := Except.ok.inj (hts.symm.trans hus)
    refine (blames_of_parseTokens hts ?_ h).exists_token hts
    rintro rfl
    rw [parseTokens_eq_error_iff] at h
    exact hne (Option.some.inj h).symm

/-- What is blamed stands in the query, unless the query is empty, and does not begin with a
blank. -/
theorem exists_head_of_parse_error (h : parse q limit = .error f) (hne : f ≠ .empty) :
    ∃ c, f.blamed.head? = some c ∧ q[f.position]? = some c ∧ isBlank c = false ∧
      f.blamed <+: q.drop f.position := by
  cases hts : tokenize q limit with
  | error fault =>
    rw [parse, tokensOf, hts] at h
    obtain rfl := Except.error.inj h
    obtain ⟨c, hblamed, hc, hkind⟩ := exists_blamed_of_scan_error hts [] rfl (by simp)
    rw [hblamed]
    refine ⟨c, rfl, hc, ?_, ?_⟩
    · rcases hkind with rfl | rfl | rfl <;> rfl
    · obtain ⟨rest, hrest⟩ := List.head?_eq_some_iff.1 (List.head?_drop.trans hc)
      exact ⟨rest, hrest.symm⟩
  | ok ts =>
    obtain ⟨t, ht, hposition, hspelling⟩ := exists_token_of_parse_error h hne hts
    rw [← hposition, ← hspelling]
    exact exists_head_of_mem hts ht

end Blamed

end Query

namespace Report

open Query

/-! ## The three lines -/

/-- A line has a single caret, which stands in this column. -/
def CaretAt (marked : Text) (column : Nat) : Prop := ∀ i : Nat, marked[i]? = some '^' ↔ i = column

theorem indent_eq : "  ".toList = List.replicate 2 ' ' := by simp

theorem caretAt_indented (p : Nat) :
    CaretAt ("  ".toList ++ List.replicate p ' ' ++ ['^']) (2 + p) := by
  intro i
  rw [indent_eq, List.replicate_append_replicate, List.getElem?_append, List.length_replicate]
  split
  · next hi => simp [hi, Nat.ne_of_lt hi]
  · next hi =>
    rw [List.getElem?_singleton]
    split <;> simp <;> omega

theorem getElem?_indented (q : Text) (i : Nat) : ("  ".toList ++ q)[2 + i]? = q[i]? := by
  rw [indent_eq, List.getElem?_append_right (by simp), List.length_replicate,
    Nat.add_sub_cancel_left]

/-- A query in normal form is shown on three lines, whatever is wrong with it. -/
theorem lines_rejection {q : Text} (hq : Text.Spaced q) (f : Fault) :
    Text.lines (rejection q f.diagnosis) =
      ["Invalid query: ".toList ++ f.message, "  ".toList ++ q,
        "  ".toList ++ List.replicate (caretColumn q f.diagnosis) ' ' ++ ['^']] := by
  -- the line breaks are pulled out of the literals, so that the text falls into its lines
  have hbreak : "\n  ".toList = '\n' :: "  ".toList := by simp
  have hsplit : rejection q f.diagnosis =
      ("Invalid query: ".toList ++ f.message) ++ '\n' :: (("  ".toList ++ q) ++ '\n' ::
        ("  ".toList ++ List.replicate (caretColumn q f.diagnosis) ' ' ++ ['^'])) := by
    delta rejection
    rw [hbreak]
    simp only [List.append_assoc, List.cons_append]
    rfl
  have hwording : ("Invalid query: ".toList ++ f.message).all isPrintable :=
    Text.printable_append (Text.printable_of_isPlain (by simp [Text.isPlain]))
      (printable_message f)
  have hshown : ∀ c ∈ "  ".toList ++ q, Text.breaksLine c = false := by
    rw [indent_eq]
    simpa [List.forall_mem_append] using ⟨by decide, hq.breaksLine⟩
  have hcaret : ("  ".toList ++ List.replicate (caretColumn q f.diagnosis) ' ' ++ ['^']).all
      isPrintable := by
    have hspace : isPrintable ' ' := Text.isPrintable_of_ascii (by decide) (by decide)
    have hmark : isPrintable '^' := Text.isPrintable_of_ascii (by decide) (by decide)
    simp [indent_eq, hspace, hmark]
  rw [hsplit, Text.lines_append_newline (Text.unbroken_of_printable hwording),
    Text.lines_append_newline hshown,
    Text.lines_of_unbroken (by simp) (Text.unbroken_of_printable hcaret)]

/-- The position of a fault is no further than the end of the query, so it is the column. -/
theorem caretColumn_of_parse_error {q : Text} {limit : Int} {f : Fault}
    (h : parse q limit = .error f) : caretColumn q f.diagnosis = f.position := by
  have hle : f.position ≤ q.length := by
    by_cases hempty : f = .empty
    · rw [hempty]
      exact Nat.zero_le _
    · obtain ⟨c, -, hc, -⟩ := exists_head_of_parse_error h hempty
      exact (List.getElem?_eq_some_iff.1 hc).1.le
  exact (congrArg (min · q.length) (Int.toNat_natCast _)).trans (Nat.min_eq_left hle)

/-- A rejected query in normal form is shown on exactly three lines: the wording, the query behind
two spaces, and the caret, which stands in the column of the query's character at the position of
the fault. That position is never cut off. In an empty query it is the start, and in any other the
first character of the token that is blamed, which is spelled there as the query reads and is one of
the tokens if the lexer has got so far. -/
theorem caret_marks_blame (raw : Text) (limit : Int) (f : Fault)
    (h : parse (normalizeQuery raw) limit = .error f) :
    let q := normalizeQuery raw
    let shown := "  ".toList ++ q
    let marked := "  ".toList ++ List.replicate f.position ' ' ++ ['^']
    Text.lines (rejection q f.diagnosis) = ["Invalid query: ".toList ++ f.message, shown, marked] ∧
    (∀ i : Nat, shown[2 + i]? = q[i]?) ∧ CaretAt marked (2 + f.position) ∧
    caretColumn q f.diagnosis = f.position ∧
    (q = [] → f.position = 0) ∧
    (q ≠ [] → f.position < q.length ∧ f.blamed <+: q.drop f.position ∧
      (∃ c, f.blamed.head? = some c ∧ q[f.position]? = some c ∧ isBlank c = false) ∧
      ∀ ts, tokenize q limit = .ok ts →
        ∃ t ∈ ts, t.position = f.position ∧ t.spelling = f.blamed) := by
  intro q shown marked
  have hspaced : Text.Spaced q := spaced_normalizeQuery raw
  -- a normal query that holds anything holds a token
  have hempty : f = .empty ↔ q = [] := by
    rw [hspaced.eq_nil_iff, ← @parse_eq_empty_iff q limit, h, Except.error.injEq]
  have hcolumn := caretColumn_of_parse_error h
  refine ⟨?_, getElem?_indented q, caretAt_indented f.position, hcolumn, fun hq => ?_, fun hq => ?_⟩
  · rw [lines_rejection hspaced, hcolumn]
  · rw [hempty.2 hq]
    rfl
  · have hne : f ≠ .empty := hq ∘ hempty.1
    obtain ⟨c, hhead, hc, hblank, hprefix⟩ := exists_head_of_parse_error h hne
    exact ⟨(List.getElem?_eq_some_iff.1 hc).1, hprefix, ⟨c, hhead, hc, hblank⟩,
      fun ts hts => exists_token_of_parse_error h hne hts⟩

/-- The caret stands under the operator that lacks an operand, in the query as it is shown. -/
theorem caret_under_operator :
    let raw := "　Ａ  Ｂ (or\tc)".toList
    ∃ f : Fault, parse (normalizeQuery raw) 1 = .error f ∧ f.position = 5 ∧
      Text.lines (rejection (normalizeQuery raw) f.diagnosis) =
        ["Invalid query: Operator 'or' is missing an operand".toList, "  a b (or c)".toList,
          "       ^".toList] := by
  intro raw
  have hq : normalizeQuery raw = "a b (or c)".toList := by decide +kernel
  have hparse : parse (normalizeQuery raw) 1 = .error (.missingOperand ⟨.or, ['o', 'r'], 5⟩) := by
    decide +kernel
  obtain ⟨hlines, -⟩ := caret_marks_blame raw 1 _ hparse
  exact ⟨_, hparse, rfl, hlines.trans (by rw [hq]; decide +kernel)⟩

end Report

end Headline
