/-
Lagotto.Text.Buffered — lines that are put into a file through a buffer.

A write is kept back in the buffer as long as there is room for it. The write
for which there is none goes to the file, behind all that was kept back. Who
reads the file sees `written` only, and the lines that were put are `contents`.

The file holds the first of the lines, but for a newline that may be missing
(`puts_written_cases`). Whether it holds all of them depends on the sizes of
the lines alone: `puts_written_eq_lines_iff`.
-/
import Mathlib.Data.List.Basic
import Mathlib.Data.List.Induction

namespace Lagotto.Text

/-! ## Lines -/

/-- `io.puts text`. -/
def puts (text : String) : String :=
  if text.toList.getLast? = some '\n' then text else text ++ "\n"

def lines : List String → String
  | [] => ""
  | text :: rest => puts text ++ lines rest

theorem lines_append (texts more : List String) :
    lines (texts ++ more) = lines texts ++ lines more := by
  induction texts with
  | nil => simp [lines]
  | cons text rest ih => rw [List.cons_append, lines, lines, ih, String.append_assoc]

theorem lines_concat (texts : List String) (text : String) :
    lines (texts ++ [text]) = lines texts ++ puts text := by
  rw [lines_append, lines, lines, String.append_empty]

theorem getLast?_puts (text : String) : (puts text).toList.getLast? = some '\n' := by
  unfold puts
  split
  · assumption
  · simp

theorem puts_eq_self {text : String} (h : text.toList.getLast? = some '\n') : puts text = text :=
  if_pos h

theorem puts_of_ne {text : String} (h : text.toList.getLast? ≠ some '\n') :
    puts text = text ++ "\n" :=
  if_neg h

theorem getLast?_lines_concat (texts : List String) (text : String) :
    (lines (texts ++ [text])).toList.getLast? = some '\n' := by
  rw [lines_concat, String.toList_append, List.getLast?_append, getLast?_puts]
  rfl

theorem puts_lines {texts : List String} (h : texts ≠ []) : puts (lines texts) = lines texts := by
  obtain ⟨init, last, rfl⟩ := List.eq_nil_or_concat' texts |>.resolve_left h
  exact puts_eq_self (getLast?_lines_concat init last)

/-- The end of a text that is put behind another one. -/
theorem getLast?_append_ne {text more : String} (hmore : more ≠ "")
    (h : more.toList.getLast? ≠ some '\n') : (text ++ more).toList.getLast? ≠ some '\n' := by
  have hsome : more.toList ≠ [] := fun hnil => hmore (String.toList_eq_nil_iff.mp hnil)
  rw [String.toList_append, List.getLast?_append_of_ne_nil _ hsome]
  exact h

/-- Every character takes a byte at least. -/
theorem length_le_utf8ByteSize (text : String) : text.length ≤ text.utf8ByteSize := by
  have hchars : ∀ chars : List Char, chars.length ≤ (String.ofList chars).utf8ByteSize := by
    intro chars
    induction chars with
    | nil => exact Nat.zero_le _
    | cons c rest ih =>
      have hc := c.utf8Size_pos
      rw [String.ofList_cons, String.utf8ByteSize_append, String.utf8ByteSize_singleton,
        List.length_cons]
      omega
  have htext := hchars text.toList
  rwa [String.ofList_toList, String.length_toList] at htext

/-! ## The buffer -/

/-- What has reached the file, and what waits in the buffer. -/
structure Buffered where
  written : String := ""
  pending : String := ""
  deriving DecidableEq, Repr

namespace Buffered

/-- All that has been written to the file. -/
def contents (f : Buffered) : String := f.written ++ f.pending

/-- `io.write text`, where the buffer takes less than `capacity` bytes. -/
def write (capacity : Nat) (text : String) (f : Buffered) : Buffered :=
  if capacity ≤ f.pending.utf8ByteSize + text.utf8ByteSize then
    { written := f.written ++ f.pending ++ text, pending := "" }
  else
    { f with pending := f.pending ++ text }

/-- `io.puts text`: the newline is a write of its own. -/
def puts (capacity : Nat) (text : String) (f : Buffered) : Buffered :=
  if text.toList.getLast? = some '\n' then f.write capacity text
  else (f.write capacity text).write capacity "\n"

def putAll (capacity : Nat) (texts : List String) (f : Buffered) : Buffered :=
  texts.foldl (fun f text => f.puts capacity text) f

section Contents

variable (capacity : Nat) (text : String) (texts : List String) (f : Buffered)

theorem contents_write : (f.write capacity text).contents = f.contents ++ text := by
  unfold write contents
  split
  · rw [String.append_empty]
  · rw [String.append_assoc]

theorem contents_puts : (f.puts capacity text).contents = f.contents ++ Text.puts text := by
  unfold puts Text.puts
  split
  · rw [contents_write]
  · rw [contents_write, contents_write, String.append_assoc]

theorem contents_putAll : (f.putAll capacity texts).contents = f.contents ++ lines texts := by
  induction texts generalizing f with
  | nil => simp [putAll, lines]
  | cons text rest ih =>
    show ((f.puts capacity text).putAll capacity rest).contents = _
    rw [ih, contents_puts, lines, String.append_assoc]

/-- A new file. -/
theorem contents_putAll_new : (putAll capacity texts {}).contents = lines texts := by
  rw [contents_putAll]
  exact String.empty_append

theorem putAll_concat :
    f.putAll capacity (texts ++ [text]) = (f.putAll capacity texts).puts capacity text :=
  List.foldl_concat ..

end Contents

/-! ## How much of it waits -/

/-- The bytes that wait after a write of `size` bytes. -/
def waiting (capacity pending size : Nat) : Nat :=
  if capacity ≤ pending + size then 0 else pending + size

/-- The bytes that wait after lines of these sizes, their newlines not counted. -/
def waitingAfter (capacity : Nat) : Nat → List Nat → Nat
  | pending, [] => pending
  | pending, size :: rest =>
    waitingAfter capacity (waiting capacity (waiting capacity pending size) 1) rest

section Waiting

variable {capacity : Nat} {text : String} {texts : List String} {f : Buffered}

theorem waiting_lt (hcapacity : 0 < capacity) (pending size : Nat) :
    waiting capacity pending size < capacity := by
  unfold waiting
  split <;> omega

theorem size_pending_write :
    (f.write capacity text).pending.utf8ByteSize =
      waiting capacity f.pending.utf8ByteSize text.utf8ByteSize := by
  unfold write waiting
  split
  · rfl
  · exact String.utf8ByteSize_append

theorem size_pending_puts (htext : text.toList.getLast? ≠ some '\n') :
    (f.puts capacity text).pending.utf8ByteSize =
      waiting capacity (waiting capacity f.pending.utf8ByteSize text.utf8ByteSize) 1 := by
  rw [puts, if_neg htext, size_pending_write, size_pending_write]
  rfl

variable (capacity f) in
theorem size_pending_putAll (htexts : ∀ text ∈ texts, text.toList.getLast? ≠ some '\n') :
    (f.putAll capacity texts).pending.utf8ByteSize =
      waitingAfter capacity f.pending.utf8ByteSize (texts.map String.utf8ByteSize) := by
  induction texts generalizing f with
  | nil => rfl
  | cons text rest ih =>
    have hrest := ih (f := f.puts capacity text) fun t ht => htexts t (List.mem_cons_of_mem text ht)
    rw [size_pending_puts (htexts text List.mem_cons_self)] at hrest
    exact hrest

theorem size_pending_puts_lt (hcapacity : 0 < capacity) :
    (f.puts capacity text).pending.utf8ByteSize < capacity := by
  unfold puts
  split
  · rw [size_pending_write]
    exact waiting_lt hcapacity ..
  · rw [size_pending_write]
    exact waiting_lt hcapacity ..

theorem size_pending_putAll_lt (hcapacity : 0 < capacity)
    (hf : f.pending.utf8ByteSize < capacity) (texts : List String) :
    (f.putAll capacity texts).pending.utf8ByteSize < capacity := by
  induction texts generalizing f with
  | nil => exact hf
  | cons text rest ih => exact ih (size_pending_puts_lt hcapacity)

end Waiting

/-! ## What has reached the file -/

section Reached

variable {capacity : Nat} {text : String} {texts : List String} {f : Buffered}

/-- What a line adds to the file: nothing, all that was put up to it, or all
but its newline. -/
theorem written_puts_cases (hf : f.pending.utf8ByteSize < capacity)
    (htext : text.toList.getLast? ≠ some '\n') :
    ((f.puts capacity text).written = f.written ∧
        f.pending.utf8ByteSize + text.utf8ByteSize + 1 < capacity) ∨
      (capacity ≤ f.pending.utf8ByteSize + text.utf8ByteSize + 1 ∧
        ((f.puts capacity text).written = f.contents ++ text ++ "\n" ∨
          text ≠ "" ∧ (f.puts capacity text).written = f.contents ++ text)) := by
  have hone : "\n".utf8ByteSize = 1 := by decide
  rw [puts, if_neg htext]
  by_cases hfull : capacity ≤ f.pending.utf8ByteSize + text.utf8ByteSize
  · have hsome : text ≠ "" := by
      rintro rfl
      rw [String.utf8ByteSize_empty] at hfull
      omega
    have hwrite : f.write capacity text = { written := f.contents ++ text, pending := "" } :=
      if_pos hfull
    rw [hwrite]
    refine Or.inr ⟨by omega, ?_⟩
    unfold write
    split
    · exact Or.inl (by simp)
    · exact Or.inr ⟨hsome, rfl⟩
  · have hwrite : f.write capacity text = { f with pending := f.pending ++ text } :=
      if_neg hfull
    have hpending : (f.pending ++ text).utf8ByteSize + "\n".utf8ByteSize =
        f.pending.utf8ByteSize + text.utf8ByteSize + 1 := by
      rw [String.utf8ByteSize_append, hone]
    rw [hwrite]
    by_cases hlast : capacity ≤ f.pending.utf8ByteSize + text.utf8ByteSize + 1
    · refine Or.inr ⟨hlast, Or.inl ?_⟩
      rw [write, if_pos (hpending.symm ▸ hlast), contents]
      simp only [String.append_assoc]
    · refine Or.inl ⟨?_, by omega⟩
      rw [write, if_neg (hpending.symm ▸ hlast)]

/-- The first of the lines are in the file, but for a newline that may be
missing. -/
theorem written_putAll_cases (hcapacity : 0 < capacity)
    (htexts : ∀ text ∈ texts, text.toList.getLast? ≠ some '\n') :
    ∃ whole rest, texts = whole ++ rest ∧
      ((putAll capacity texts {}).written = lines whole ∨
        (putAll capacity texts {}).written ++ "\n" = lines whole ∧
          (putAll capacity texts {}).written.toList.getLast? ≠ some '\n') := by
  induction texts using List.reverseRecOn with
  | nil => exact ⟨[], [], rfl, Or.inl rfl⟩
  | append_singleton init last ih =>
    have hlast := htexts last (by simp)
    obtain ⟨whole, rest, hsplit, hwritten⟩ :=
      ih fun text htext => htexts text (List.mem_append_left _ htext)
    have hcontents := contents_putAll_new capacity init
    rw [putAll_concat]
    obtain ⟨hkept, -⟩ | ⟨-, hall | ⟨hsome, hall⟩⟩ := written_puts_cases
      (size_pending_putAll_lt (f := {}) hcapacity hcapacity init) hlast
    · refine ⟨whole, rest ++ [last], by rw [hsplit, List.append_assoc], ?_⟩
      rw [hkept]
      exact hwritten
    · refine ⟨init ++ [last], [], by simp, Or.inl ?_⟩
      rw [hall, hcontents, lines_concat, puts_of_ne hlast, String.append_assoc]
    · refine ⟨init ++ [last], [], by simp, Or.inr ?_⟩
      rw [hall, hcontents, lines_concat, puts_of_ne hlast, String.append_assoc]
      exact ⟨rfl, getLast?_append_ne hsome hlast⟩

/-- A line put behind what has reached the file completes the last line there.
Where nothing has reached it, the line is empty. -/
theorem puts_written_cases (hcapacity : 0 < capacity)
    (htexts : ∀ text ∈ texts, text.toList.getLast? ≠ some '\n') :
    ∃ whole rest, texts = whole ++ rest ∧
      (Text.puts (putAll capacity texts {}).written = lines whole ∨
        Text.puts (putAll capacity texts {}).written = "\n") := by
  obtain ⟨whole, rest, hsplit, hwhole | ⟨hwhole, hend⟩⟩ := written_putAll_cases hcapacity htexts
  · refine ⟨whole, rest, hsplit, ?_⟩
    rw [hwhole]
    cases whole with
    | nil => exact Or.inr (by decide)
    | cons text more => exact Or.inl (puts_lines (List.cons_ne_nil text more))
  · exact ⟨whole, rest, hsplit, Or.inl (by rw [puts_of_ne hend, hwhole])⟩

/-- The last of the lines, or its newline, made the buffer overflow. Nothing
needs to, if there is a single empty line. -/
def Filled (capacity : Nat) (texts : List String) : Prop :=
  capacity ≤ waitingAfter capacity 0 (texts.dropLast.map String.utf8ByteSize) +
    (texts.getLast?.getD "").utf8ByteSize + 1 ∨ texts = [""]

instance (capacity : Nat) (texts : List String) : Decidable (Filled capacity texts) :=
  inferInstanceAs (Decidable (_ ∨ _))

/-- Where the last line is not in the file, something is missing unless that
line is all there is and empty. -/
theorem eq_nil_of_puts_written {init : List String} {last : String}
    (h : Text.puts (putAll capacity init {}).written = lines init ++ last ++ "\n") :
    init = [] ∧ last = "" := by
  have hcontents : lines init =
      (putAll capacity init {}).written ++ (putAll capacity init {}).pending :=
    (contents_putAll_new capacity init).symm
  rw [hcontents] at h
  by_cases hend : (putAll capacity init {}).written.toList.getLast? = some '\n'
  · rw [puts_eq_self hend, String.append_assoc, String.append_assoc] at h
    have hnone := String.append_eq_left_iff.mp h.symm
    simp [String.append_eq_empty_iff] at hnone
  · rw [puts_of_ne hend, String.append_left_inj, String.append_assoc] at h
    have hnone := String.append_eq_left_iff.mp h.symm
    obtain ⟨hpending, hlast⟩ := String.append_eq_empty_iff.mp hnone
    refine ⟨by_contra fun hinit => hend ?_, hlast⟩
    rw [hpending, String.append_empty] at hcontents
    rw [← hcontents, ← puts_lines hinit]
    exact getLast?_puts _

/-- All lines can be read back, the last newline apart, exactly if the last
line made the buffer overflow. -/
theorem puts_written_eq_lines_iff (hcapacity : 0 < capacity)
    (htexts : ∀ text ∈ texts, text.toList.getLast? ≠ some '\n') (hsome : texts ≠ []) :
    Text.puts (putAll capacity texts {}).written = lines texts ↔ Filled capacity texts := by
  obtain ⟨init, last, rfl⟩ := List.eq_nil_or_concat' texts |>.resolve_left hsome
  have hlast := htexts last (by simp)
  have hinit : ∀ text ∈ init, text.toList.getLast? ≠ some '\n' :=
    fun text htext => htexts text (List.mem_append_left _ htext)
  have hpending := size_pending_putAll capacity {} hinit
  have hcontents := contents_putAll_new capacity init
  have hlines : lines (init ++ [last]) = lines init ++ last ++ "\n" := by
    rw [lines_concat, puts_of_ne hlast, String.append_assoc]
  rw [Filled, List.dropLast_concat, List.getLast?_concat, Option.getD_some,
    ← String.utf8ByteSize_empty, ← hpending, putAll_concat, hlines]
  obtain ⟨hkept, hroom⟩ | ⟨hfull, hall⟩ := written_puts_cases
    (size_pending_putAll_lt (f := {}) hcapacity hcapacity init) hlast
  · rw [hkept]
    constructor
    · intro heq
      obtain ⟨rfl, rfl⟩ := eq_nil_of_puts_written heq
      exact Or.inr rfl
    · rintro (hfull | hone)
      · omega
      · obtain ⟨rfl, rfl⟩ : init = [] ∧ last = "" := by
          simpa [List.append_eq_singleton_iff] using hone
        show Text.puts "" = "" ++ "" ++ "\n"
        decide
  · refine iff_of_true ?_ (Or.inl hfull)
    rcases hall with hall | ⟨hsome, hall⟩
    · rw [hall, hcontents, ← hlines, puts_lines hsome]
    · rw [hall, hcontents, puts_of_ne (getLast?_append_ne hsome hlast)]

end Reached

end Buffered

end Lagotto.Text
