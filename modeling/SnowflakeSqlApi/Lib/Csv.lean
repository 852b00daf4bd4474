import Mathlib.Data.List.Forall2
import Mathlib.Data.List.Nodup

/-!
# Reading delimited records

A reader of delimiter-separated records, as an automaton over the text: a quote at the start of a
field opens a quoted one, a doubled quote inside it is a quote, and a line break outside quotes ends
the record.  An empty line is a record without fields.  A reader may have a limit for the length of
a field, and then refuses a text with a longer one.

`RecordText` is what the text of a record may look like.  `parse_lines` says that the records of any
text made of such lines are those, so it is all that a writer has to keep to.
-/

namespace SnowflakeSqlApi.Csv

/-- The four characters that structure a text. -/
structure Dialect (α : Type) where
  delimiter : α
  quote : α
  cr : α
  lf : α
  apart : [delimiter, quote, cr, lf].Nodup

inductive Mode
  /-- At the start of a record. -/
  | record
  /-- At the start of a field. -/
  | field
  | plain
  | quoted
  /-- After a quote inside a quoted field. -/
  | closing
  /-- After the first half of a line break. -/
  | cr
  deriving DecidableEq

/-- A reader: the records so far, the fields of the record it is in and the field it is in. -/
structure Reader (α : Type) where
  mode : Mode := .record
  records : List (List (List α)) := []
  fields : List (List α) := []
  field : List α := []

variable {α : Type} [DecidableEq α] (d : Dialect α)

namespace Dialect

def IsBreak (c : α) : Prop := c = d.cr ∨ c = d.lf

instance (c : α) : Decidable (d.IsBreak c) := inferInstanceAs (Decidable (_ ∨ _))

/-- A character that needs no quotes. -/
def IsPlain (c : α) : Prop := c ≠ d.delimiter ∧ c ≠ d.quote ∧ ¬ d.IsBreak c

end Dialect

namespace Reader

variable (r : Reader α)

def push (c : α) : Reader α := { r with field := r.field ++ [c] }

/-- The end of a field. -/
def save : Reader α := { r with fields := r.fields ++ [r.field], field := [] }

/-- The end of a record at the line break `c`. -/
def endRecord (c : α) : Reader α :=
  { r with
    mode := if c = d.cr then .cr else .record
    records := r.records ++ [r.fields]
    fields := [] }

/-- A character after the text of a field. -/
def afterField (c : α) : Reader α :=
  if d.IsBreak c then r.save.endRecord d c
  else if c = d.delimiter then { r.save with mode := .field }
  else { r.push c with mode := .plain }

def startField (c : α) : Reader α :=
  if c = d.quote then { r with mode := .quoted } else r.afterField d c

def startRecord (c : α) : Reader α :=
  if d.IsBreak c then r.endRecord d c else r.startField d c

def step (c : α) : Reader α :=
  match r.mode with
  | .record => r.startRecord d c
  | .field => r.startField d c
  | .plain => r.afterField d c
  | .quoted => if c = d.quote then { r with mode := .closing } else r.push c
  | .closing => if c = d.quote then { r.push c with mode := .quoted } else r.afterField d c
  | .cr => if c = d.lf then { r with mode := .record } else r.startRecord d c

def run (text : List α) : Reader α := text.foldl (step d) r

/-- The records at the end of a text, with one that no line break ends. -/
def finish : List (List (List α)) :=
  match r.mode with
  | .record | .cr => r.records
  | .field | .plain | .quoted | .closing => r.records ++ [r.fields ++ [r.field]]

end Reader

/-- The records of a text, however long their fields. -/
def parse (text : List α) : List (List (List α)) := (Reader.run d {} text).finish

/-- The records of a text for a reader that refuses a field of more than `limit` characters. Every
field it comes to, the last one included, is one of these records. -/
def read (limit : Nat) (text : List α) : Option (List (List (List α))) :=
  if ∀ record ∈ parse d text, ∀ field ∈ record, field.length ≤ limit then some (parse d text)
  else none

/-! ### Texts of records -/

/-- The quotes of a field doubled. -/
def escape (field : List α) : List α := field.flatMap fun c => if c = d.quote then [c, c] else [c]

/-- A text of a field. -/
inductive FieldText : List α → List α → Prop
  | plain {field : List α} : (∀ c ∈ field, d.IsPlain c) → FieldText field field
  | quoted (field : List α) : FieldText field ([d.quote] ++ escape d field ++ [d.quote])

/-- A text of a record, without its line break. -/
inductive RecordText : List (List α) → List α → Prop
  | empty : RecordText [] []
  | fields {fields texts : List (List α)} : List.Forall₂ (FieldText d) fields texts →
      [d.delimiter].intercalate texts ≠ [] → RecordText fields ([d.delimiter].intercalate texts)

/-! ### Reading a field -/

namespace Reader

variable {d} {r : Reader α}

theorem run_append (s t : List α) : r.run d (s ++ t) = (r.run d s).run d t := List.foldl_append

theorem run_cons (c : α) (t : List α) : r.run d (c :: t) = (r.step d c).run d t := rfl

omit [DecidableEq α] in
theorem quote_not_break : ¬ d.IsBreak d.quote := by
  have h := d.apart
  simp only [List.nodup_cons, List.mem_cons, List.not_mem_nil, or_false, not_or] at h
  exact not_or.mpr ⟨h.2.1.1, h.2.1.2⟩

omit [DecidableEq α] in
theorem delimiter_not_break : ¬ d.IsBreak d.delimiter := by
  have h := d.apart
  simp only [List.nodup_cons, List.mem_cons, List.not_mem_nil, or_false, not_or] at h
  exact not_or.mpr ⟨h.1.2.1, h.1.2.2⟩

omit [DecidableEq α] in
theorem delimiter_ne_quote : d.delimiter ≠ d.quote := by
  have h := d.apart
  simp only [List.nodup_cons, List.mem_cons, List.not_mem_nil, or_false, not_or] at h
  exact h.1.1

/-- The reader stands after the whole text of a field. -/
def AfterText (r : Reader α) : Prop :=
  r.mode = .plain ∨ r.mode = .closing ∨ (r.mode = .field ∧ r.field = [])

/-- What ends a field does so in any of these modes. -/
theorem AfterText.step (h : r.AfterText) {c : α} (hc : c ≠ d.quote) :
    r.step d c = r.afterField d c := by
  rcases h with hmode | hmode | ⟨hmode, -⟩
  · rw [Reader.step, hmode]
  · rw [Reader.step, hmode]
    exact if_neg hc
  · rw [Reader.step, hmode]
    exact if_neg hc

theorem run_plain {field : List α} (hplain : ∀ c ∈ field, d.IsPlain c) (hmode : r.mode = .plain) :
    r.run d field = { r with field := r.field ++ field } := by
  induction field generalizing r with
  | nil =>
    rw [List.append_nil]
    rfl
  | cons c field ih =>
    obtain ⟨hdelimiter, -, hbreak⟩ := hplain c List.mem_cons_self
    have hstep : r.step d c = r.push c := by
      rw [step, hmode]
      dsimp only
      rw [afterField, if_neg hbreak, if_neg hdelimiter, push, ← hmode]
    rw [run_cons, hstep,
      ih (r := r.push c) (fun x hx => hplain x (List.mem_cons_of_mem _ hx)) hmode, push]
    simp

theorem run_escape (field : List α) (hmode : r.mode = .quoted) :
    r.run d (escape d field) = { r with field := r.field ++ field } := by
  induction field generalizing r with
  | nil =>
    rw [List.append_nil]
    rfl
  | cons c field ih =>
    rw [escape, List.flatMap_cons, run_append]
    have hread : r.run d (if c = d.quote then [c, c] else [c]) = r.push c := by
      by_cases hc : c = d.quote
      · have hopen : r.step d c = { r with mode := .closing } := by
          rw [step, hmode]
          exact if_pos hc
        rw [if_pos hc, run_cons, hopen, run_cons, step]
        dsimp only
        rw [if_pos hc, push, push, ← hmode]
        rfl
      · rw [if_neg hc, run_cons, step, hmode]
        exact if_neg hc
    rw [hread]
    show (r.push c).run d (escape d field) = _
    rw [ih (r := r.push c) hmode, push]
    simp

/-- **A field is read** from its start, whatever way it is written. -/
theorem run_field {content text : List α} (h : FieldText d content text) (hmode : r.mode = .field)
    (hfield : r.field = []) : ∃ mode, r.run d text = { r with mode, field := content } ∧
      AfterText { r with mode, field := content } := by
  cases h with
  | plain hplain =>
    cases content with
    | nil =>
      refine ⟨.field, ?_, .inr (.inr ⟨rfl, rfl⟩)⟩
      obtain ⟨mode, records, fields, field⟩ := r
      cases hmode
      cases hfield
      rfl
    | cons c content =>
      obtain ⟨hdelimiter, hquote, hbreak⟩ := hplain c List.mem_cons_self
      have hstep : r.step d c = { r with mode := .plain, field := [c] } := by
        rw [step, hmode]
        dsimp only
        rw [startField, if_neg hquote, afterField, if_neg hbreak, if_neg hdelimiter, push, hfield]
        rfl
      refine ⟨.plain, ?_, .inl rfl⟩
      rw [run_cons, hstep, run_plain (fun x hx => hplain x (List.mem_cons_of_mem _ hx)) rfl]
      rfl
  | quoted =>
    have hopen : r.step d d.quote = { r with mode := .quoted } := by
      rw [step, hmode]
      exact if_pos rfl
    have hclose : ∀ q : Reader α, q.mode = .quoted →
        q.run d [d.quote] = { q with mode := .closing } := by
      intro q hq
      rw [run_cons, step, hq]
      dsimp only
      rw [if_pos rfl]
      rfl
    refine ⟨.closing, ?_, .inr (.inl rfl)⟩
    rw [List.append_assoc, List.singleton_append, run_cons, hopen, run_append, run_escape content rfl,
      hclose _ rfl, hfield]
    rfl

/-! ### Reading a record -/

/-- A reader after some fields of a record, and after the text of the next. -/
def after (records : List (List (List α))) (fields : List (List α)) (mode : Mode)
    (field : List α) : Reader α :=
  { mode, records, fields, field }

/-- **The fields of a record are read**, up to the end of the last. -/
theorem run_fields {fields texts : List (List α)} (h : List.Forall₂ (FieldText d) fields texts)
    (hne : fields ≠ []) (records : List (List (List α))) (before : List (List α)) :
    ∃ mode init last, fields = init ++ [last] ∧
      (after records before .field []).run d ([d.delimiter].intercalate texts) =
        after records (before ++ init) mode last ∧
      (after records (before ++ init) mode last).AfterText := by
  induction h generalizing before with
  | nil => exact absurd rfl hne
  | @cons content text contents texts hfield htexts ih =>
    obtain ⟨mode, hrun, hafter⟩ := run_field (r := after records before .field []) hfield rfl rfl
    cases htexts with
    | nil =>
      refine ⟨mode, [], content, rfl, ?_, ?_⟩
      · rw [List.intercalate_singleton, hrun, List.append_nil]
        rfl
      · rw [List.append_nil]
        exact hafter
    | @cons content' text' contents' texts' hfield' htexts' =>
      obtain ⟨mode', init, last, hlast, hrest, hafter'⟩ :=
        ih (List.cons_ne_nil _ _) (before ++ [content])
      have hdelimiter : (after records before mode content).step d d.delimiter =
          after records (before ++ [content]) .field [] := by
        have hstep : (after records before mode content).step d d.delimiter = _ :=
          AfterText.step hafter delimiter_ne_quote
        rw [hstep, afterField, if_neg delimiter_not_break, if_pos rfl]
        rfl
      refine ⟨mode', content :: init, last, ?_, ?_, ?_⟩
      · rw [hlast]
        rfl
      · rw [List.intercalate_cons_cons, run_append, run_append, hrun, run_cons]
        show ((after records before mode content).step d d.delimiter).run d _ = _
        rw [hdelimiter, hrest, List.append_assoc]
        rfl
      · rw [List.append_assoc] at hafter'
        exact hafter'

/-- The line break after a record. -/
theorem run_break {records : List (List (List α))} {fields : List (List α)} {mode : Mode}
    {field : List α} (h : (after records fields mode field).AfterText) :
    (after records fields mode field).run d [d.cr, d.lf] =
      { records := records ++ [fields ++ [field]] } := by
  have hbreak : d.IsBreak d.cr := .inl rfl
  have hquote : d.cr ≠ d.quote := fun hc => quote_not_break (hc ▸ hbreak)
  have hcr : (after records fields mode field).step d d.cr =
      { mode := .cr, records := records ++ [fields ++ [field]] } := by
    rw [h.step hquote, afterField, if_pos hbreak, endRecord, if_pos rfl]
    rfl
  rw [run_cons, hcr, run_cons, step]
  dsimp only
  rw [if_pos rfl]
  rfl

/-- The text of a record does not begin with a line break. -/
theorem head_not_break {fields texts : List (List α)}
    (h : List.Forall₂ (FieldText d) fields texts) {c : α} {rest : List α}
    (hc : [d.delimiter].intercalate texts = c :: rest) : ¬ d.IsBreak c := by
  cases h with
  | nil => cases hc
  | @cons content text contents texts hfield htexts =>
    have hhead : ∀ {t : List α}, text ++ t = c :: rest → (text = [] → t.head? = some d.delimiter ∨ t = []) →
        ¬ d.IsBreak c := by
      intro t ht hempty
      cases hfield with
      | plain hplain =>
        cases content with
        | nil =>
          rw [List.nil_append] at ht
          rcases hempty rfl with hd | hnil
          · rw [ht] at hd
            cases hd
            exact delimiter_not_break
          · rw [hnil] at ht
            cases ht
        | cons c' content =>
          cases ht
          exact (hplain c List.mem_cons_self).2.2
      | quoted =>
        cases ht
        exact quote_not_break
    cases htexts with
    | nil =>
      rw [List.intercalate_singleton] at hc
      exact hhead (t := []) (by rw [List.append_nil]; exact hc) fun _ => .inr rfl
    | cons _ _ =>
      rw [List.intercalate_cons_cons, List.append_assoc] at hc
      exact hhead hc fun _ => .inl rfl

/-- **A line is read as its record.** -/
theorem run_line {fields : List (List α)} {line : List α} (h : RecordText d fields line)
    (records : List (List (List α))) :
    run d { records } (line ++ [d.cr, d.lf]) = { records := records ++ [fields] } := by
  cases h with
  | empty =>
    have hbreak : d.IsBreak d.cr := .inl rfl
    have hcr : step d { records } d.cr = { mode := .cr, records := records ++ [[]] } := by
      rw [step]
      dsimp only
      rw [startRecord, if_pos hbreak, endRecord, if_pos rfl]
    rw [List.nil_append, run_cons, hcr, run_cons, step]
    dsimp only
    rw [if_pos rfl]
    rfl
  | @fields _ texts htexts hne =>
    have hfields : fields ≠ [] := by
      rintro rfl
      cases htexts
      exact hne rfl
    obtain ⟨mode, init, last, hlast, hrun, hafter⟩ := run_fields htexts hfields records []
    have hstart : run d { records } ([d.delimiter].intercalate texts) =
        (after records [] .field []).run d ([d.delimiter].intercalate texts) := by
      cases hline : [d.delimiter].intercalate texts with
      | nil => exact absurd hline hne
      | cons c rest =>
        have hstep : step d { records } c = (after records [] .field []).step d c := by
          rw [step, step]
          exact if_neg (head_not_break htexts hline)
        rw [run_cons, run_cons, hstep]
    rw [run_append, hstart, hrun, run_break hafter, hlast]
    rfl

end Reader

/-- **The records of a text are read back**, whatever way its lines are written. -/
theorem parse_lines {records : List (List (List α))} {lines : List (List α)}
    (h : List.Forall₂ (RecordText d) records lines) :
    parse d (lines.flatMap (· ++ [d.cr, d.lf])) = records := by
  have hrun : ∀ before : List (List (List α)),
      Reader.run d { records := before } (lines.flatMap (· ++ [d.cr, d.lf])) =
        { records := before ++ records } := by
    induction h with
    | nil =>
      intro before
      rw [List.append_nil]
      rfl
    | @cons record line records lines hline _ ih =>
      intro before
      rw [List.flatMap_cons, Reader.run_append, Reader.run_line hline, ih, List.append_assoc]
      rfl
  rw [parse]
  show (Reader.run d { records := [] } _).finish = _
  rw [hrun]
  rfl

/-- A reader gives the records of a text, or refuses it for a field that is too long. -/
theorem read_of_parse {limit : Nat} {text : List α} {records : List (List (List α))}
    (h : parse d text = records) : read d limit text =
      if ∀ record ∈ records, ∀ field ∈ record, field.length ≤ limit then some records else none := by
  rw [read, h]

end SnowflakeSqlApi.Csv
