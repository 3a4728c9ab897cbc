/-
# Styled text

Text on a terminal is a list of spans, each with an optional style.  Writing a
styled span surrounds its text with control sequences `ESC [ … m`; the plain
text of the spans is what is left when these sequences are removed
(`stripControls_render`).

| style | before the text | after the text |
| --- | --- | --- |
| `good` | `32` | `0` |
| `bad` | `31;1` | `0` |
| `phosphor` | `32;40;1` | `0` |
| `faint` | `90` | `39` |
| `alarm` | `31`, then `1` | `0`, then `39` |
-/

namespace Chip8
namespace Text

/-- The styles in use: green for what is valid, bold red for what is not, a
green phosphor on black for addresses, grey for what is secondary, and bold red
within red for a fatal message. -/
inductive Style where
  | good
  | bad
  | phosphor
  | faint
  | alarm
  deriving DecidableEq, Repr

/-- The control sequence of the given parameters: escape, bracket, parameters, `m`. -/
def control (parameters : String) : String :=
  "\x1b[" ++ parameters ++ "m"

/-- What is written before a text of this style. -/
def Style.start : Style → String
  | .good => control "32"
  | .bad => control "31;1"
  | .phosphor => control "32;40;1"
  | .faint => control "90"
  | .alarm => control "31" ++ control "1"

/-- What is written after a text of this style. -/
def Style.stop : Style → String
  | .good | .bad | .phosphor => control "0"
  | .faint => control "39"
  | .alarm => control "0" ++ control "39"

/-- A piece of text in one style, or in none. -/
structure Span where
  style : Option Style
  text : String
  deriving DecidableEq, Repr

namespace Span

/-- A text without style. -/
def ofText (text : String) : Span := ⟨none, text⟩

/-- A text in a style. -/
def styled (style : Style) (text : String) : Span := ⟨some style, text⟩

/-- The span as it is sent to the terminal. -/
def render : Span → String
  | ⟨none, text⟩ => text
  | ⟨some style, text⟩ => style.start ++ text ++ style.stop

end Span

/-- The spans as they are sent to the terminal. -/
def render (spans : List Span) : String :=
  String.join (spans.map Span.render)

/-- The text of the spans without any control sequence. -/
def plain (spans : List Span) : String :=
  String.join (spans.map Span.text)

/-- The characters left when control sequences are removed.  The flag tells
whether the reading is inside a sequence, which ends with its first `m`. -/
def stripFrom : Bool → List Char → List Char
  | _, [] => []
  | false, c :: cs => if c = '\x1b' then stripFrom true cs else c :: stripFrom false cs
  | true, c :: cs => stripFrom (c != 'm') cs

/-- A text with its control sequences removed. -/
def stripControls (text : String) : String :=
  String.ofList (stripFrom false text.toList)

/-- What is sent to the terminal is sent span by span. -/
theorem render_append (a b : List Span) : render (a ++ b) = render a ++ render b := by
  apply String.toList_inj.1
  simp [render]

/-- Plain text is the text of the spans, one after the other. -/
theorem plain_append (a b : List Span) : plain (a ++ b) = plain a ++ plain b := by
  apply String.toList_inj.1
  simp [plain]

/-- Text without control sequences is kept. -/
theorem stripFrom_append_of_not_mem {cs : List Char} (h : '\x1b' ∉ cs) (rest : List Char) :
    stripFrom false (cs ++ rest) = cs ++ stripFrom false rest := by
  induction cs with
  | nil => rfl
  | cons c cs ih =>
    have hc : c ≠ '\x1b' := fun e => h (e ▸ List.mem_cons_self)
    have hcs : '\x1b' ∉ cs := fun e => h (List.mem_cons_of_mem _ e)
    rw [List.cons_append, stripFrom, if_neg hc, ih hcs, List.cons_append]

/-- What begins a style is removed. -/
theorem stripFrom_start (style : Style) (rest : List Char) :
    stripFrom false (style.start.toList ++ rest) = stripFrom false rest := by
  cases style <;> simp [Style.start, control, stripFrom]

/-- What ends a style is removed. -/
theorem stripFrom_stop (style : Style) (rest : List Char) :
    stripFrom false (style.stop.toList ++ rest) = stripFrom false rest := by
  cases style <;> simp [Style.stop, control, stripFrom]

/-- Of spans that are sent to the terminal the plain text is left. -/
theorem stripFrom_render_append {spans : List Span}
    (h : ∀ s ∈ spans, '\x1b' ∉ s.text.toList) (rest : List Char) :
    stripFrom false ((render spans).toList ++ rest) =
      (plain spans).toList ++ stripFrom false rest := by
  induction spans with
  | nil => simp [render, plain]
  | cons s spans ih =>
    have ih := ih fun t ht => h t (List.mem_cons_of_mem _ ht)
    have hs := h s List.mem_cons_self
    obtain ⟨style, text⟩ := s
    have hr : (render (⟨style, text⟩ :: spans)).toList =
        (Span.render ⟨style, text⟩).toList ++ (render spans).toList := by
      simp [render]
    have hp : (plain (⟨style, text⟩ :: spans)).toList =
        text.toList ++ (plain spans).toList := by
      simp [plain]
    rw [hr, hp]
    cases style with
    | none =>
      simp only [Span.render, List.append_assoc]
      rw [stripFrom_append_of_not_mem hs, ih]
    | some style =>
      simp only [Span.render, String.toList_append, List.append_assoc]
      rw [stripFrom_start, stripFrom_append_of_not_mem hs, stripFrom_stop, ih]

/-- **Removing the control sequences leaves the plain text,** as long as the
text itself has no escape character. -/
theorem stripControls_render {spans : List Span} (h : ∀ s ∈ spans, '\x1b' ∉ s.text.toList) :
    stripControls (render spans) = plain spans := by
  have := stripFrom_render_append h []
  simp only [List.append_nil, stripFrom] at this
  rw [stripControls, this, String.ofList_toList]

end Text
end Chip8
