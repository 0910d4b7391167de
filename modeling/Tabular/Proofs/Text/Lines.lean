import Mathlib.Data.List.Basic
import Tabular.Proofs.Token.Cutting

/-!
# Lines and blocks

Lines that have no newline in them are found again in the text that they make up (`linesOf_textOf`). A block is a text
of one or more lines none of which is empty (`Text.IsBlock`); so blocks can be followed by an empty line each, and they
are found again in the whole (`blocks_join`). The pieces that lines are made of have no newlines in them
(`Text.OneLine`): this is kept by putting texts together, and words and numbers have none.
-/

namespace Tabular

/-! ## Lists that are cut at a sign -/

section Lists

variable {α : Type}

/-- Lines that are ended by a sign that is not in them are found again. -/
theorem splitOn_flatten [BEq α] [LawfulBEq α] {x : α} {lines : List (List α)} (h : ∀ l ∈ lines, x ∉ l) :
    (lines.map (· ++ [x])).flatten.splitOn x = lines ++ [[]] := by
  induction lines with
  | nil => exact List.splitOn_nil x
  | cons l lines ih =>
    obtain ⟨hl, hls⟩ := List.forall_mem_cons.mp h
    have hx : (x == x) = true := BEq.rfl
    rw [List.map_cons, List.flatten_cons, List.append_assoc, List.singleton_append,
      List.splitOn_append_cons_of_beq _ _ hx, List.splitOn_eq_singleton hl, ih hls]
    rfl

theorem not_mem_intercalate {x : α} {sep : List α} {pieces : List (List α)} (hx : x ∉ sep) (h : ∀ p ∈ pieces, x ∉ p) :
    x ∉ sep.intercalate pieces := by
  induction pieces with
  | nil => exact List.not_mem_nil
  | cons p pieces ih =>
    obtain ⟨hp, hps⟩ := List.forall_mem_cons.mp h
    cases pieces with
    | nil => rwa [List.intercalate_singleton]
    | cons q pieces =>
      rw [List.intercalate_cons_cons]
      simp [hp, hx, ih hps]

/-- The sign never comes twice in a row where no line is empty. -/
theorem not_infix_flatten [BEq α] [LawfulBEq α] {x : α} {lines : List (List α)} (h : ∀ l ∈ lines, l ≠ [] ∧ x ∉ l) :
    ¬ [x, x] <:+: (lines.map (· ++ [x])).flatten := by
  rintro ⟨s, t, hst⟩
  have hx : (x == x) = true := BEq.rfl
  have hsplit := splitOn_flatten fun l hl => (h l hl).2
  -- between the two signs there is an empty piece, which is not the last one
  rw [← hst, List.append_assoc, List.cons_append, List.splitOn_append_cons_of_beq _ _ hx, List.cons_append,
    List.nil_append, ← List.nil_append (x :: t), List.splitOn_append_cons_of_beq _ _ hx, List.splitOn_nil] at hsplit
  have hne : t.splitOn x ≠ [] := List.splitOn_ne_nil x t
  have hlines : lines = s.splitOn x ++ [[]] ++ (t.splitOn x).dropLast := by
    have hdrop := congrArg List.dropLast hsplit
    rw [List.dropLast_concat, ← List.append_assoc, List.dropLast_append_of_ne_nil hne] at hdrop
    exact hdrop.symm
  exact (h [] (by simp [hlines])).1 rfl

end Lists

/-! ## Texts of lines -/

/-- The lines of a text, each of which ends with a newline. -/
def linesOf (text : String) : List (List Char) :=
  (text.toList.splitOn '\n').dropLast

/-- The text of lines, with a newline behind each. -/
def textOf (lines : List (List Char)) : String :=
  String.ofList (lines.map (· ++ ['\n'])).flatten

/-- The blocks of a text, each of which is followed by an empty line. -/
def blocks (text : String) : List String :=
  ((linesOf text).splitOn []).dropLast.map textOf

theorem toList_textOf (lines : List (List Char)) : (textOf lines).toList = (lines.map (· ++ ['\n'])).flatten := by
  rw [textOf, String.toList_ofList]

theorem linesOf_textOf {lines : List (List Char)} (h : ∀ l ∈ lines, '\n' ∉ l) : linesOf (textOf lines) = lines := by
  rw [linesOf, toList_textOf, splitOn_flatten h, List.dropLast_concat]

theorem textOf_append (lines lines' : List (List Char)) : textOf (lines ++ lines') = textOf lines ++ textOf lines' := by
  simp [textOf]

namespace Text

/-- The text has one or more lines, none of which is empty, and a newline behind each. -/
def IsBlock (text : String) : Prop :=
  ∃ lines, lines ≠ [] ∧ (∀ l ∈ lines, l ≠ [] ∧ '\n' ∉ l) ∧ text = textOf lines

/-- What a client relies on to find the end of a text behind which an empty line stands. -/
structure Framed (text : String) : Prop where
  nonempty : text ≠ ""
  start : text.toList.head? ≠ some '\n'
  noEmptyLine : ¬ ['\n', '\n'] <:+: text.toList
  ending : ∃ front, text = front ++ "\n" ∧ front.toList.getLast? ≠ some '\n'

theorem IsBlock.framed {text : String} (h : IsBlock text) : Framed text := by
  obtain ⟨lines, hne, hlines, rfl⟩ := h
  have hending : ∃ front, textOf lines = front ++ "\n" ∧ front.toList.getLast? ≠ some '\n' := by
    obtain ⟨init, last, rfl⟩ := (List.eq_nil_or_concat lines).resolve_left hne
    rw [List.concat_eq_append] at hlines ⊢
    obtain ⟨hlast, hn⟩ := hlines last (by simp)
    refine ⟨textOf init ++ String.ofList last, by simp [textOf, String.append_assoc], ?_⟩
    rw [String.toList_append, String.toList_ofList, List.getLast?_append_of_ne_nil _ hlast]
    exact fun h => hn (List.mem_of_getLast? h)
  refine ⟨?_, ?_, ?_, hending⟩
  · obtain ⟨front, h, -⟩ := hending
    rw [h]
    simp
  · obtain ⟨l, lines, rfl⟩ := List.exists_cons_of_ne_nil hne
    obtain ⟨⟨hl, hn⟩, -⟩ := List.forall_mem_cons.mp hlines
    obtain ⟨c, l, rfl⟩ := List.exists_cons_of_ne_nil hl
    have hc : c ≠ '\n' := fun h => hn (h ▸ List.mem_cons_self)
    simpa [toList_textOf] using hc
  · rw [toList_textOf]
    exact not_infix_flatten hlines

end Text

/-- Blocks that are put together are blocks of lines. -/
theorem exists_lines_of_blocks {texts : List String} (h : ∀ t ∈ texts, Text.IsBlock t) :
    ∃ groups : List (List (List Char)), texts = groups.map textOf ∧ ∀ g ∈ groups, ∀ l ∈ g, l ≠ [] ∧ '\n' ∉ l := by
  induction texts with
  | nil => exact ⟨[], rfl, fun _ h => absurd h List.not_mem_nil⟩
  | cons t texts ih =>
    obtain ⟨⟨lines, -, hl, rfl⟩, hts⟩ := List.forall_mem_cons.mp h
    obtain ⟨groups, rfl, hg⟩ := ih hts
    exact ⟨lines :: groups, rfl, List.forall_mem_cons.mpr ⟨hl, hg⟩⟩

/-- **Blocks that are followed by an empty line each are found again.** -/
theorem blocks_join {texts : List String} (h : ∀ t ∈ texts, Text.IsBlock t) :
    blocks (String.join (texts.map (· ++ "\n"))) = texts := by
  obtain ⟨groups, rfl, hg⟩ := exists_lines_of_blocks h
  have hjoin : String.join ((groups.map textOf).map (· ++ "\n")) = textOf (groups.map (· ++ [[]])).flatten := by
    have hempty : "\n" = textOf [[]] := rfl
    clear h hg
    induction groups with
    | nil => rfl
    | cons g groups ih =>
      rw [List.map_cons, List.map_cons, String.join_cons, ih, List.map_cons, List.flatten_cons, textOf_append,
        textOf_append, ← hempty]
  have hlines : ∀ l ∈ (groups.map (· ++ [[]])).flatten, '\n' ∉ l := by
    intro l hl
    obtain ⟨_, hm, hl⟩ := List.mem_flatten.mp hl
    obtain ⟨g, hgm, rfl⟩ := List.mem_map.mp hm
    rcases List.mem_append.mp hl with hl | hl
    · exact (hg g hgm l hl).2
    · rw [List.mem_singleton.mp hl]
      exact List.not_mem_nil
  have hnil : ∀ g ∈ groups, [] ∉ g := fun g hgm hl => (hg g hgm [] hl).1 rfl
  rw [blocks, hjoin, linesOf_textOf hlines, splitOn_flatten hnil, List.dropLast_concat]

/-! ## Texts without newlines -/

namespace Text

/-- The text has no newline in it. -/
def OneLine (text : String) : Prop :=
  '\n' ∉ text.toList

instance (text : String) : Decidable (OneLine text) :=
  inferInstanceAs (Decidable (¬ _))

variable {s u : String}

@[simp] theorem oneLine_append : OneLine (s ++ u) ↔ OneLine s ∧ OneLine u := by
  simp [OneLine]

theorem OneLine.intercalate {texts : List String} (hs : OneLine s) (h : ∀ t ∈ texts, OneLine t) :
    OneLine (s.intercalate texts) := by
  rw [OneLine, String.toList_intercalate]
  exact not_mem_intercalate hs (List.forall_mem_map.mpr h)

theorem oneLine_repr (n : Nat) : OneLine n.repr := by
  rw [OneLine, Nat.toList_repr]
  intro h
  exact absurd (Nat.isDigit_of_mem_toDigits (by decide) (by decide) h) (by decide)

/-- A word stands on one line. -/
theorem oneLine_of_isWord {text : String} (h : Lexeme.IsWord text.toList) : OneLine text :=
  h.not_mem rfl

/-- A text without newlines, with a newline behind it, is a block unless it is empty. -/
theorem OneLine.isBlock (h : OneLine s) (hne : s ≠ "") : IsBlock (s ++ "\n") := by
  refine ⟨[s.toList], List.cons_ne_nil _ _, ?_, ?_⟩
  · rw [List.forall_mem_singleton]
    exact ⟨by simpa using hne, h⟩
  · simp [textOf]

end Text
end Tabular
