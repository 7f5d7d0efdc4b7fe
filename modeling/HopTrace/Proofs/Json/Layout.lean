import HopTrace.Json.Layout
import HopTrace.Json.Scan
import Mathlib.Data.List.Basic

/-!
# The texts of a document

A text lays out a document if it has the tokens of the document in their order,
with blanks wherever they may stand. Both ways of writing a document lay it out,
the one without blanks and the one over several lines.
-/

namespace HopTrace.Json

variable {b s rest : List Char}

/-! ## Blanks -/

def Blank (b : List Char) : Prop := ∀ c ∈ b, isSpace c = true

theorem blank_nil : Blank [] := nofun

theorem blank_space : Blank [' '] := by
  rintro _ (_ | ⟨_, ⟨⟩⟩)
  rfl

theorem blank_newline (level : Nat) : Blank (Doc.newline level) := by
  intro c hc
  rcases List.mem_cons.mp hc with rfl | hc
  · rfl
  · rw [List.eq_of_mem_replicate hc]
    rfl

theorem skipSpace_blank (h : Blank b) (s : List Char) : skipSpace (b ++ s) = skipSpace s :=
  List.dropWhile_append_of_pos h

theorem skipSpace_of_head {c : Char} (h : isSpace c = false) (s : List Char) :
    skipSpace (c :: s) = c :: s :=
  List.dropWhile_cons_of_neg (by simp [h])

namespace Doc

/-! ## Layouts -/

mutual

/-- A document, and a text that has its tokens with any blanks between them. -/
inductive Laid : Doc → List Char → Prop
  | null : Laid .null ['n', 'u', 'l', 'l']
  | yes : Laid (.bool true) ['t', 'r', 'u', 'e']
  | no : Laid (.bool false) ['f', 'a', 'l', 's', 'e']
  | number (t : List Char) : Laid (.number t) t
  | string (s : List Char) : Laid (.string s) (quote s)
  | emptyArray {b : List Char} (inside : Blank b) : Laid (.array []) ('[' :: (b ++ [']']))
  | array {d ds} {b s t : List Char} (before : Blank b) (item : Laid d s)
      (others : LaidItems ds t) : Laid (.array (d :: ds)) ('[' :: (b ++ (s ++ t)))
  | emptyObject {b : List Char} (inside : Blank b) :
      Laid (.object []) ('\x7b' :: (b ++ ['\x7d']))
  | object {k d ms} {b s t : List Char} (before : Blank b) (member : LaidMember k d s)
      (others : LaidMembers ms t) : Laid (.object ((k, d) :: ms)) ('\x7b' :: (b ++ (s ++ t)))

inductive LaidItems : List Doc → List Char → Prop
  | close {b : List Char} (before : Blank b) : LaidItems [] (b ++ [']'])
  | next {d ds} {b b' s t : List Char} (before : Blank b) (after : Blank b') (item : Laid d s)
      (others : LaidItems ds t) : LaidItems (d :: ds) (b ++ ',' :: (b' ++ (s ++ t)))

inductive LaidMember : List Char → Doc → List Char → Prop
  | member {k d} {b b' s : List Char} (before : Blank b) (after : Blank b') (value : Laid d s) :
      LaidMember k d (quote k ++ (b ++ ':' :: (b' ++ s)))

inductive LaidMembers : List (List Char × Doc) → List Char → Prop
  | close {b : List Char} (before : Blank b) : LaidMembers [] (b ++ ['\x7d'])
  | next {k d ms} {b b' s t : List Char} (before : Blank b) (after : Blank b')
      (member : LaidMember k d s) (others : LaidMembers ms t) :
      LaidMembers ((k, d) :: ms) (b ++ ',' :: (b' ++ (s ++ t)))

end

/-! ## The two ways of writing -/

mutual

theorem laid_compact (d : Doc) : d.Laid d.compact := by
  match d with
  | .null => exact .null
  | .bool true => exact .yes
  | .bool false => exact .no
  | .number t => exact .number t
  | .string s => exact .string s
  | .array [] => exact .emptyArray blank_nil
  | .array (d :: ds) => exact .array blank_nil (laid_compact d) (laidItems_compact ds)
  | .object [] => exact .emptyObject blank_nil
  | .object ((k, d) :: ms) =>
    have member : LaidMember k d (quote k ++ ':' :: d.compact) :=
      .member blank_nil blank_nil (laid_compact d)
    simpa [compact] using Laid.object blank_nil member (laidMembers_compact ms)

theorem laidItems_compact (ds : List Doc) : LaidItems ds (compactItems ds) := by
  match ds with
  | [] => exact .close blank_nil
  | d :: ds => exact .next blank_nil blank_nil (laid_compact d) (laidItems_compact ds)

theorem laidMembers_compact (ms : List (List Char × Doc)) : LaidMembers ms (compactMembers ms) := by
  match ms with
  | [] => exact .close blank_nil
  | (k, d) :: ms =>
    have member : LaidMember k d (quote k ++ ':' :: d.compact) :=
      .member blank_nil blank_nil (laid_compact d)
    simpa [compactMembers] using
      LaidMembers.next blank_nil blank_nil member (laidMembers_compact ms)

end

mutual

theorem laid_pretty (level : Nat) (d : Doc) : d.Laid (d.pretty level) := by
  match d with
  | .null => exact .null
  | .bool true => exact .yes
  | .bool false => exact .no
  | .number t => exact .number t
  | .string s => exact .string s
  | .array [] => exact .emptyArray blank_nil
  | .array (d :: ds) =>
    have item := laid_pretty (level + 1) d
    simpa [pretty] using Laid.array (blank_newline (level + 1)) item (laidItems_pretty level ds)
  | .object [] => exact .emptyObject blank_nil
  | .object ((k, d) :: ms) =>
    have member : LaidMember k d (quote k ++ ':' :: ' ' :: d.pretty (level + 1)) :=
      .member blank_nil blank_space (laid_pretty (level + 1) d)
    simpa [pretty] using
      Laid.object (blank_newline (level + 1)) member (laidMembers_pretty level ms)

theorem laidItems_pretty (level : Nat) (ds : List Doc) : LaidItems ds (prettyItems level ds) := by
  match ds with
  | [] => exact .close (blank_newline level)
  | d :: ds =>
    have item := laid_pretty (level + 1) d
    simpa [prettyItems] using
      LaidItems.next blank_nil (blank_newline (level + 1)) item (laidItems_pretty level ds)

theorem laidMembers_pretty (level : Nat) (ms : List (List Char × Doc)) :
    LaidMembers ms (prettyMembers level ms) := by
  match ms with
  | [] => exact .close (blank_newline level)
  | (k, d) :: ms =>
    have member : LaidMember k d (quote k ++ ':' :: ' ' :: d.pretty (level + 1)) :=
      .member blank_nil blank_space (laid_pretty (level + 1) d)
    simpa [prettyMembers] using
      LaidMembers.next blank_nil (blank_newline (level + 1)) member (laidMembers_pretty level ms)

end

/-! ## Whole texts -/

/-- Whether a text is a document, with blanks around it. -/
def WrittenAs (d : Doc) (text : String) : Prop :=
  ∃ before s after, Blank before ∧ d.Laid s ∧ Blank after ∧ text.toList = before ++ (s ++ after)

theorem writtenAs_of_laid {d : Doc} {s : List Char} (laid : d.Laid s) :
    d.WrittenAs (String.ofList s) :=
  ⟨[], s, [], blank_nil, laid, blank_nil, by simp⟩

theorem writtenAs_compact (d : Doc) : d.WrittenAs (String.ofList d.compact) :=
  writtenAs_of_laid d.laid_compact

theorem writtenAs_pretty (d : Doc) (level : Nat) : d.WrittenAs (String.ofList (d.pretty level)) :=
  writtenAs_of_laid (d.laid_pretty level)

theorem WrittenAs.newline {d : Doc} {text : String} (h : d.WrittenAs text) :
    d.WrittenAs (text ++ "\n") := by
  obtain ⟨before, s, after, hb, laid, ha, htext⟩ := h
  refine ⟨before, s, after ++ ['\n'], hb, laid, ?_, ?_⟩
  · intro c hc
    rcases List.mem_append.mp hc with hc | hc
    · exact ha c hc
    · obtain rfl := List.mem_singleton.mp hc
      rfl
  · simp [htext]

end Doc

end HopTrace.Json
