import Mathlib.Data.List.DropRight
import Mathlib.Data.List.Forall2
import Mathlib.Data.List.Infix
import Tabular.Proofs.Server.Sending
import Tabular.Repl

/-!
# The loop and the server agree

The lines that are typed make up statements (`statements`): they are cut behind each line that ends in a semicolon,
blank lines in front of a statement are left away, and the rest is joined with spaces. The replies that the loop prints
are those of the server to a client that sends these statements one per line (`agreement`). Joining keeps the tokens
(`sameTokens_statement`), and the prompts tell whether a statement has been begun.

The loop keeps a buffer and forgets the lines. What the buffer holds is described by all lines that were typed before
(`buffered`). One more line keeps this, whether it completes a statement (`feed_closing`) or not (`feed_open`), and so
the exchanges of a whole run follow from the lines (`exists_follows`).
-/

namespace Tabular.Repl

open Text

/-! ## Lines and statements -/

/-- Whether a line consists of blanks. -/
def isBlankLine (line : String) : Bool :=
  line.toList.all isBlank

/-- Whether a line ends the loop. -/
def exits (line : String) : Bool :=
  isExit (trim line)

/-- Whether a line completes a statement. -/
def closes (line : String) : Bool :=
  completes (trim line)

/-- The lines in front of the first one that ends the loop. -/
def entered (lines : List String) : List String :=
  lines.takeWhile fun line => !exits line

/-- Cuts a list behind each item with a property. Items behind the last one that has it are left away. -/
def cutAfter {α : Type} (p : α → Bool) : List α → List (List α)
  | [] => []
  | a :: as =>
    if p a then [a] :: cutAfter p as
    else
      match cutAfter p as with
      | [] => []
      | group :: groups => (a :: group) :: groups

/-- The lines of each statement, from its first line that is not blank. -/
def groups (lines : List String) : List (List String) :=
  (cutAfter closes (entered lines)).map fun group => group.dropWhile isBlankLine

/-- The lines of a statement as one line. -/
def statement (group : List String) : String :=
  " ".intercalate (group.map trim)

/-- The statements that the lines make up. -/
def statements (lines : List String) : List String :=
  (groups lines).map statement

/-- The lines behind the last one that completes a statement. -/
def openLines (typed : List String) : List String :=
  typed.rtakeWhile fun line => !closes line

/-- The prompt after lines: a statement goes on if a line of it is not blank. -/
def promptAfter (typed : List String) : String :=
  if (openLines typed).any fun line => !isBlankLine line then "...  " else "sql> "

/-- What the loop prints for input, exchange by exchange. -/
def exchanges (input : List UInt8) : List Exchange :=
  (Repl.new.run ((splitLines input).map decodeStrict?)).1

/-- Two texts have the same tokens, wherever these stand. -/
def SameTokens (text text' : String) : Prop :=
  ∃ ts ts', Token.ofText text = .ok ts ∧ Token.ofText text' = .ok ts' ∧ List.Forall₂ Token.Same ts ts'

/-- Exchanges are those of a loop that is in agreement with the server. -/
structure Agrees (lines : List String) (es : List Exchange) : Prop where
  /-- Without the prompts, what is printed is what the server sends for the statements, if none is too long. -/
  served : (∀ text ∈ statements lines, text.utf8ByteSize ≤ requestLimit) →
    String.join ((es.filterMap (·.reply?)).map frame) = serverOutput (streamOf (statements lines))
  tokens : ∀ group ∈ groups lines, SameTokens (statement group) ("\n".intercalate group)
  /-- There is one prompt for each line that is read, also for one that ends the loop, and one at the end of input. -/
  count : es.length = (entered lines).length + (lines.find? exits).toList.length +
    if (lines.find? exits).isNone then 1 else 0
  /-- Each prompt is the one after the lines that were typed before it. -/
  prompts : es.map (·.prompt) = (entered lines).inits.map promptAfter

/-! ## Cutting -/

section Cutting

variable {α : Type} {p : α → Bool} {a : α} {as front : List α}

theorem cutAfter_of_forall (h : ∀ a ∈ as, p a = false) : cutAfter p as = [] := by
  induction as with
  | nil => rfl
  | cons a as ih =>
    obtain ⟨ha, has⟩ := List.forall_mem_cons.mp h
    simp [cutAfter, ha, ih has]

theorem cutAfter_append_cons (h : ∀ a ∈ front, p a = false) (ha : p a = true) (as : List α) :
    cutAfter p (front ++ a :: as) = (front ++ [a]) :: cutAfter p as := by
  induction front with
  | nil => simp [cutAfter, ha]
  | cons b front ih =>
    obtain ⟨hb, hfront⟩ := List.forall_mem_cons.mp h
    simp [cutAfter, hb, ih hfront]

/-- What is cut is a front part of the list. -/
theorem flatten_cutAfter (p : α → Bool) (as : List α) : (cutAfter p as).flatten <+: as := by
  induction as with
  | nil => exact List.nil_prefix
  | cons a as ih =>
    cases ha : p a with
    | true => simpa [cutAfter, ha] using ih
    | false =>
      cases hc : cutAfter p as with
      | nil => simp [cutAfter, ha, hc]
      | cons group groups =>
        rw [hc] at ih
        simpa [cutAfter, ha, hc] using ih

end Cutting

theorem mem_of_mem_groups {lines group : List String} {line : String} (hg : group ∈ groups lines) (h : line ∈ group) :
    line ∈ lines := by
  obtain ⟨whole, hw, rfl⟩ := List.mem_map.mp hg
  have hwhole : line ∈ whole := (List.dropWhile_sublist _).mem h
  have hcut : line ∈ (cutAfter closes (entered lines)).flatten := List.mem_flatten.mpr ⟨whole, hw, hwhole⟩
  exact (List.takeWhile_sublist _).mem ((flatten_cutAfter _ _).mem hcut)

/-! ## Joined lines -/

theorem oneLine_trim {line : String} (h : OneLine line) : OneLine (trim line) := by
  obtain ⟨before, behind, hcs, -, -⟩ := exists_trimBlanks line.toList
  intro hm
  rw [trim, String.toList_ofList] at hm
  apply h
  rw [hcs]
  simp [hm]

/-- A statement has no newline in it. -/
theorem oneLine_statement {group : List String} (h : ∀ line ∈ group, OneLine line) : OneLine (statement group) := by
  have hspace : OneLine " " := by decide
  exact hspace.intercalate (List.forall_mem_map.mpr fun line hl => oneLine_trim (h line hl))

/-- Two texts have the same tokens if they have the same readings. -/
theorem sameTokens_of_readings {text text' : String} (h : Token.readings text.toList = Token.readings text'.toList) :
    SameTokens text text' := by
  obtain ⟨ts, hts, hr⟩ := Token.exists_ofText text
  obtain ⟨ts', hts', hr'⟩ := Token.exists_ofText text'
  have hsame : ts.map Token.unplaced = ts'.map Token.unplaced := by rw [hr, hr', h]
  rw [← List.forall₂_eq_eq_eq, List.forall₂_map_left_iff, List.forall₂_map_right_iff] at hsame
  exact ⟨ts, ts', hts, hts', hsame⟩

/-- A statement has the tokens of its lines. -/
theorem sameTokens_statement (group : List String) : SameTokens (statement group) ("\n".intercalate group) := by
  have htrim : ∀ line, Token.readings (trim line).toList = Token.readings line.toList := by
    intro line
    rw [trim, String.toList_ofList, Token.readings_trimBlanks]
  have hspaces := Token.readings_intercalate (c := ' ') rfl ((group.map trim).map String.toList)
  have hnewlines := Token.readings_intercalate (c := '\n') rfl (group.map String.toList)
  have hlines : ((group.map trim).map String.toList).map Token.readings =
      (group.map String.toList).map Token.readings := by
    simp [Function.comp_def, htrim]
  apply sameTokens_of_readings
  rw [statement, String.toList_intercalate, String.toList_intercalate]
  exact hspaces.trans ((congrArg List.flatten hlines).trans hnewlines.symm)

theorem isEmpty_statement_cons {line : String} (h : isBlankLine line = false) (group : List String) :
    (statement (line :: group)).isEmpty = false := by
  have hline : trim line ≠ "" := by
    rw [Ne, ← String.isEmpty_iff, isEmpty_trim]
    simpa [isBlankLine] using h
  rw [← Bool.not_eq_true, String.isEmpty_iff, ← String.toList_inj, statement, String.toList_intercalate]
  cases group with
  | nil => simpa using hline
  | cons next group => simp [List.intercalate_cons_cons]

/-- Nothing is left of a group of blank lines only. -/
theorem isEmpty_statement_dropWhile (group : List String) :
    (statement (group.dropWhile isBlankLine)).isEmpty = group.all isBlankLine := by
  induction group with
  | nil => rfl
  | cons line group ih =>
    cases h : isBlankLine line with
    | true => rw [List.dropWhile_cons_of_pos h, ih, List.all_cons, h, Bool.true_and]
    | false =>
      rw [List.dropWhile_cons_of_neg (by simp [h]), isEmpty_statement_cons h, List.all_cons, h, Bool.false_and]

theorem statement_concat {group : List String} (hne : group ≠ []) (line : String) :
    statement (group ++ [line]) = statement group ++ " " ++ trim line := by
  induction group with
  | nil => exact absurd rfl hne
  | cons first group ih =>
    cases group with
    | nil => simp [statement]
    | cons next group =>
      have hnext := ih (List.cons_ne_nil _ _)
      simp only [statement, ← String.toList_inj, String.toList_intercalate, String.toList_append, List.map_cons,
        List.cons_append, List.intercalate_cons_cons, List.append_assoc] at hnext ⊢
      rw [hnext]

/-- One more line is joined. -/
theorem join_statement (group : List String) (line : String) :
    join (statement (group.dropWhile isBlankLine)) (trim line) =
      statement ((group ++ [line]).dropWhile isBlankLine) := by
  rw [join, isEmpty_statement_dropWhile, List.dropWhile_append]
  cases h : group.dropWhile isBlankLine with
  | nil =>
    have hall : group.all isBlankLine = true := by
      rw [List.all_eq_true]
      exact List.dropWhile_eq_nil_iff.mp h
    rw [if_pos hall, List.isEmpty_nil, if_pos rfl]
    cases hl : isBlankLine line with
    | true =>
      have hempty : trim line = "" := by
        rw [← String.isEmpty_iff, isEmpty_trim]
        exact hl
      rw [List.dropWhile_cons_of_pos hl, hempty]
      rfl
    | false => simp [hl, statement]
  | cons first rest =>
    have hall : ¬ group.all isBlankLine = true := by
      intro hall
      rw [List.dropWhile_eq_nil_iff.mpr (List.all_eq_true.mp hall)] at h
      nomatch h
    rw [if_neg hall, List.isEmpty_cons, if_neg Bool.false_ne_true, statement_concat (List.cons_ne_nil _ _)]

/-! ## The buffer -/

/-- What the loop has in its buffer after lines. -/
def buffered (typed : List String) : String :=
  statement ((openLines typed).dropWhile isBlankLine)

theorem openLines_concat_closing {line : String} (h : closes line = true) (typed : List String) :
    openLines (typed ++ [line]) = [] := by
  rw [openLines, List.rtakeWhile_concat]
  simp [h]

theorem openLines_concat_open {line : String} (h : closes line = false) (typed : List String) :
    openLines (typed ++ [line]) = openLines typed ++ [line] := by
  rw [openLines, List.rtakeWhile_concat]
  simp [h, openLines]

theorem closes_of_mem_openLines {typed : List String} : ∀ line ∈ openLines typed, closes line = false := by
  intro line h
  simpa using List.mem_rtakeWhile_imp h

theorem prompt_buffered (s : Session) (typed : List String) : prompt ⟨s, buffered typed⟩ = promptAfter typed := by
  have hany : ((openLines typed).any fun line => !isBlankLine line) = !(openLines typed).all isBlankLine := by
    rw [List.not_all_eq_any_not]
  rw [prompt, promptAfter, hany, buffered, isEmpty_statement_dropWhile]
  cases (openLines typed).all isBlankLine <;> rfl

section Feed

variable {line : String} (s : Session) (typed : List String)

theorem feed_exit (h : exits line = true) (r : Repl) : r.feed line = none := by
  rw [exits] at h
  simp [feed, h]

/-- A line that completes nothing is kept. -/
theorem feed_open (he : exits line = false) (hc : closes line = false) :
    feed ⟨s, buffered typed⟩ line = some (none, ⟨s, buffered (typed ++ [line])⟩) := by
  have hjoin : join (buffered typed) (trim line) = buffered (typed ++ [line]) := by
    rw [buffered, buffered, openLines_concat_open hc, join_statement]
  rw [exits] at he
  rw [closes] at hc
  simp [feed, he, hc, hjoin]

/-- A line that completes a statement has it carried out. -/
theorem feed_closing (he : exits line = false) (hc : closes line = true) {reply? : Option String} {s' : Session}
    (hr : s.runLine (statement ((openLines typed ++ [line]).dropWhile isBlankLine)) = (reply?, s')) :
    feed ⟨s, buffered typed⟩ line = some (reply?, ⟨s', buffered (typed ++ [line])⟩) := by
  have hempty : buffered (typed ++ [line]) = "" := by
    rw [buffered, openLines_concat_closing hc]
    rfl
  rw [← join_statement] at hr
  rw [exits] at he
  rw [closes] at hc
  rw [hempty]
  simp [feed, he, hc, buffered, hr]

end Feed

/-! ## Runs -/

section Entered

variable {line : String}

theorem entered_cons_exit (h : exits line = true) (lines : List String) : entered (line :: lines) = [] :=
  List.takeWhile_cons_of_neg (by simp [h])

theorem entered_cons (h : exits line = false) (lines : List String) :
    entered (line :: lines) = line :: entered lines :=
  List.takeWhile_cons_of_pos (by simp [h])

/-- The statements that lines make up after others. -/
def statementsAfter (typed lines : List String) : List String :=
  (cutAfter closes (openLines typed ++ entered lines)).map fun group => statement (group.dropWhile isBlankLine)

theorem statementsAfter_nil {lines : List String} (h : entered lines = []) (typed : List String) :
    statementsAfter typed lines = [] := by
  rw [statementsAfter, h, List.append_nil, cutAfter_of_forall closes_of_mem_openLines, List.map_nil]

theorem statementsAfter_open (he : exits line = false) (hc : closes line = false) (typed lines : List String) :
    statementsAfter typed (line :: lines) = statementsAfter (typed ++ [line]) lines := by
  rw [statementsAfter, statementsAfter, openLines_concat_open hc, entered_cons he, ← List.append_cons]

theorem statementsAfter_closing (he : exits line = false) (hc : closes line = true) (typed lines : List String) :
    statementsAfter typed (line :: lines) = statement ((openLines typed ++ [line]).dropWhile isBlankLine) ::
      statementsAfter (typed ++ [line]) lines := by
  rw [statementsAfter, statementsAfter, openLines_concat_closing hc, entered_cons he,
    cutAfter_append_cons closes_of_mem_openLines hc, List.map_cons, List.nil_append]

end Entered

/-- Exchanges of the loop on lines, after others that were typed before. -/
structure Follows (s : Session) (typed lines : List String) (es : List Exchange) : Prop where
  run : run ⟨s, buffered typed⟩ (lines.map some) = (es, .finished)
  prompts : es.map (·.prompt) = (entered lines).inits.map fun now => promptAfter (typed ++ now)
  replies : es.filterMap (·.reply?) = (s.runLines (statementsAfter typed lines)).filterMap id

/-- The last exchange has a prompt only. -/
theorem follows_last {s : Session} {typed lines : List String} (he : entered lines = [])
    (hr : Repl.run ⟨s, buffered typed⟩ (lines.map some) = ([⟨prompt ⟨s, buffered typed⟩, none⟩], .finished)) :
    Follows s typed lines [⟨promptAfter typed, none⟩] := by
  rw [prompt_buffered] at hr
  refine ⟨hr, ?_, ?_⟩
  · simp [he]
  · rw [statementsAfter_nil he]
    rfl

/-- An exchange, and those after its line. -/
theorem Follows.cons {s s' : Session} {typed lines : List String} {line : String} {es : List Exchange}
    {reply? : Option String} (h : Follows s' (typed ++ [line]) lines es) (he : exits line = false)
    (hf : feed ⟨s, buffered typed⟩ line = some (reply?, ⟨s', buffered (typed ++ [line])⟩))
    (hr : (s.runLines (statementsAfter typed (line :: lines))).filterMap id =
      reply?.toList ++ (s'.runLines (statementsAfter (typed ++ [line]) lines)).filterMap id) :
    Follows s typed (line :: lines) (⟨promptAfter typed, reply?⟩ :: es) := by
  refine ⟨?_, ?_, ?_⟩
  · rw [List.map_cons, Repl.run, hf]
    simp only [h.run, prompt_buffered]
  · rw [entered_cons he, List.inits_cons, List.map_cons, h.prompts]
    simp
  · rw [hr, ← h.replies]
    cases reply? <;> rfl

/-- The loop goes through all lines up to one that ends it. -/
theorem exists_follows (s : Session) (typed lines : List String) : ∃ es, Follows s typed lines es := by
  induction lines generalizing s typed with
  | nil => exact ⟨_, follows_last rfl rfl⟩
  | cons line lines ih =>
    cases he : exits line with
    | true =>
      refine ⟨_, follows_last (entered_cons_exit he lines) ?_⟩
      rw [List.map_cons, run, feed_exit he]
    | false =>
      cases hc : closes line with
      | false =>
        obtain ⟨es, h⟩ := ih s (typed ++ [line])
        refine ⟨_, h.cons he (feed_open s typed he hc) ?_⟩
        rw [statementsAfter_open he hc]
        rfl
      | true =>
        cases hr : s.runLine (statement ((openLines typed ++ [line]).dropWhile isBlankLine)) with
        | mk reply? s' =>
          obtain ⟨es, h⟩ := ih s' (typed ++ [line])
          refine ⟨_, h.cons he (feed_closing s typed he hc hr) ?_⟩
          rw [statementsAfter_closing he hc, Session.runLines, hr]
          cases reply? <;> rfl

/-! ## Input -/

/-- The lines of the input have no newlines in them. -/
theorem newline_not_mem_splitLines {input : List UInt8} : ∀ line ∈ splitLines input, newline ∉ line := by
  induction input with
  | nil => exact fun _ h => absurd h List.not_mem_nil
  | cons b bs ih =>
    rw [splitLines]
    by_cases hb : b = newline
    · rw [if_pos (by simpa using hb), List.forall_mem_cons]
      exact ⟨List.not_mem_nil, ih⟩
    · rw [if_neg (by simpa using hb)]
      cases hs : splitLines bs with
      | nil =>
        rw [List.forall_mem_singleton, List.mem_singleton]
        exact Ne.symm hb
      | cons line lines =>
        rw [hs, List.forall_mem_cons] at ih
        rw [List.forall_mem_cons, List.mem_cons, not_or]
        exact ⟨⟨Ne.symm hb, ih.1⟩, ih.2⟩

theorem oneLine_of_splitLines {input : List UInt8} {lines : List String}
    (h : (splitLines input).map decodeStrict? = lines.map some) : ∀ line ∈ lines, OneLine line := by
  intro line hl
  have hmem : some line ∈ (splitLines input).map decodeStrict? := h ▸ List.mem_map_of_mem hl
  obtain ⟨bytes, hb, hd⟩ := List.mem_map.mp hmem
  exact newline_not_mem_of_decodeStrict? (newline_not_mem_splitLines bytes hb) hd

theorem length_entered (lines : List String) : (entered lines).length + 1 =
    (entered lines).length + (lines.find? exits).toList.length + if (lines.find? exits).isNone then 1 else 0 := by
  cases lines.find? exits <;> simp

/-- **The loop and the server agree on all input that can be read as text.** -/
theorem agreement {input : List UInt8} {lines : List String}
    (h : (splitLines input).map decodeStrict? = lines.map some) :
    transcript input = (banner ++ String.join ((exchanges input).map (·.text)), .finished) ∧
      Agrees lines (exchanges input) := by
  obtain ⟨es, hes⟩ := exists_follows Session.new [] lines
  have hrun : Repl.new.run ((splitLines input).map decodeStrict?) = (es, .finished) := by
    rw [h]
    exact hes.run
  have hexchanges : exchanges input = es := by rw [exchanges, hrun]
  have hlines : ∀ text ∈ statements lines, OneLine text := by
    refine List.forall_mem_map.mpr fun group hg => oneLine_statement fun line hl => ?_
    exact oneLine_of_splitLines h line (mem_of_mem_groups hg hl)
  refine ⟨?_, ?_, ?_, ?_, ?_⟩
  · rw [transcript, hrun, hexchanges]
  · intro hsize
    have hstatements : statementsAfter [] lines = statements lines := by
      rw [statements, groups, List.map_map]
      rfl
    rw [serverOutput_streamOf hlines hsize, hexchanges, hes.replies, hstatements]
  · exact fun group _ => sameTokens_statement group
  · have hlength := congrArg List.length hes.prompts
    rw [List.length_map, List.length_map, List.length_inits] at hlength
    rw [hexchanges, hlength, length_entered]
  · rw [hexchanges, hes.prompts]
    rfl

/-- A statement on two lines behind a blank one, and another that is given up. -/
def brokenLines : List String :=
  ["", " create table t", "(a int);\r", "show", ".exit", ";"]

theorem agreement_brokenLines :
    (splitLines (streamOf brokenLines)).map decodeStrict? = brokenLines.map some ∧
      statements brokenLines = ["create table t (a int);"] ∧
      (∀ text ∈ statements brokenLines, text.utf8ByteSize ≤ requestLimit) ∧
      transcript (streamOf brokenLines) =
        (banner ++ String.join ((exchanges (streamOf brokenLines)).map (·.text)), .finished) ∧
      Agrees brokenLines (exchanges (streamOf brokenLines)) :=
  ⟨by decide +kernel, by decide +kernel, by decide +kernel, agreement (by decide +kernel)⟩

end Tabular.Repl
