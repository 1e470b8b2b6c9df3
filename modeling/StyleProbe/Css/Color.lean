import StyleProbe.Binary32.Arithmetic
import StyleProbe.Css.Component
import StyleProbe.Css.Error

/-!
# Colours

Named colours, hexadecimal colours and `rgb()`, resolved to three channels
and an alpha, and the text a resolved colour reads back as. Alpha is
computed in single precision and kept to three decimals.
-/

namespace StyleProbe.Css

/-- Three channels and an opacity. -/
structure Rgba where
  red : Fin 256
  green : Fin 256
  blue : Fin 256
  alpha : Binary32
deriving DecidableEq

/-- The spelling of a resolved colour: alpha is left out of a colour that is
not translucent. -/
def Rgba.text (c : Rgba) : String :=
  let channels := toString c.red.val ++ ", " ++ toString c.green.val ++ ", " ++
    toString c.blue.val
  if (Binary32.ofNat 1).le c.alpha then "rgb(" ++ channels ++ ")"
  else "rgba(" ++ channels ++ ", " ++ c.alpha.text ++ ")"

/-- A colour, or the keyword for the colour of the text around it. -/
inductive Color where
  | currentColor
  | rgba (color : Rgba)
deriving DecidableEq

namespace Color

def text : Color → String
  | currentColor => "currentcolor"
  | rgba color => color.text

theorem text_ne_empty (c : Color) : c.text ≠ "" := by
  cases c with
  | currentColor => simp [text]
  | rgba color =>
    simp only [text, Rgba.text]
    split <;> simp

/-- The named colours. -/
def named : List (String × Fin 256 × Fin 256 × Fin 256) :=
  [("black", 0, 0, 0), ("silver", 192, 192, 192), ("gray", 128, 128, 128),
   ("grey", 128, 128, 128), ("white", 255, 255, 255), ("maroon", 128, 0, 0),
   ("red", 255, 0, 0), ("purple", 128, 0, 128), ("fuchsia", 255, 0, 255),
   ("magenta", 255, 0, 255), ("blueviolet", 138, 43, 226),
   ("green", 0, 128, 0), ("lime", 0, 255, 0), ("olive", 128, 128, 0),
   ("yellowgreen", 154, 205, 50), ("yellow", 255, 255, 0),
   ("navy", 0, 0, 128), ("blue", 0, 0, 255), ("teal", 0, 128, 128),
   ("aqua", 0, 255, 255), ("cyan", 0, 255, 255), ("orange", 255, 165, 0),
   ("brown", 165, 42, 42), ("rebeccapurple", 102, 51, 153)]

/-- Rounds an alpha to three decimals. -/
def roundAlpha (alpha : Binary32) : Binary32 :=
  ((alpha.mul (.ofNat 1000)).round).div (.ofNat 1000)

/-! ## Reading -/

/-- The colour of a name, in any ASCII case. -/
def ofName (name : String) : Except Error Color :=
  let lower := Text.lowerAscii name
  if lower = "currentcolor" then .ok currentColor
  else if lower = "transparent" then .ok (rgba ⟨0, 0, 0, .zero⟩)
  else
    match named.lookup lower with
    | some (red, green, blue) => .ok (rgba ⟨red, green, blue, .ofNat 1⟩)
    | none => .error (.unknownColorName name)

/-- A byte from its hexadecimal digits. -/
def hexByte (digits : List Char) : Fin 256 :=
  ⟨Text.hexNumber digits % 256, Nat.mod_lt _ (by decide)⟩

/-- The alpha of a byte, where 255 is opaque. -/
def byteAlpha (byte : Fin 256) : Binary32 :=
  roundAlpha ((Binary32.ofNat byte.val).div (.ofNat 255))

/-- The colour of three, four, six or eight hexadecimal digits. With three
or four every digit counts twice; a fourth or a last pair is the alpha. -/
def ofHex (digits : String) : Except Error Color :=
  if digits.toList.all Text.isHexDigit then
    match digits.toList with
    | [r, g, b] =>
      .ok (rgba ⟨hexByte [r, r], hexByte [g, g], hexByte [b, b],
        byteAlpha 255⟩)
    | [r, g, b, a] =>
      .ok (rgba ⟨hexByte [r, r], hexByte [g, g], hexByte [b, b],
        byteAlpha (hexByte [a, a])⟩)
    | [r, r', g, g', b, b'] =>
      .ok (rgba ⟨hexByte [r, r'], hexByte [g, g'], hexByte [b, b'],
        byteAlpha 255⟩)
    | [r, r', g, g', b, b', a, a'] =>
      .ok (rgba ⟨hexByte [r, r'], hexByte [g, g'], hexByte [b, b'],
        byteAlpha (hexByte [a, a'])⟩)
    | _ => .error (.invalidHexColor digits)
  else .error (.invalidHexColor digits)

/-- Whether a component value only separates the arguments of `rgb()`. -/
def isSeparator : Component → Bool
  | .token .whitespace => true
  | .token .comma => true
  | .token (.delim char) => char == '/'
  | _ => false

/-- The factor from a percentage to a channel. -/
def percentToChannel : Binary32 := .ofDecimal ⟨false, 255, -2⟩

/-- A channel: a number, or a percentage of 255. -/
def channel : Component → Except Error (Fin 256)
  | .token (.number n) =>
    .ok (n.round.clamp .zero (.ofNat 255)).toByte
  | .token (.percentage p) =>
    .ok (((p.mul percentToChannel).round).clamp .zero (.ofNat 255)).toByte
  | argument => .error (.invalidChannel argument.text)

/-- An alpha: a number, or a percentage. -/
def alphaArgument : Component → Except Error Binary32
  | .token (.number n) => .ok (roundAlpha (n.clamp .zero (.ofNat 1)))
  | .token (.percentage p) =>
    .ok (roundAlpha ((p.div (.ofNat 100)).clamp .zero (.ofNat 1)))
  | argument => .error (.invalidAlpha argument.text)

/-- The colour of the contents of `rgb()`: three channels and at most one
alpha, however they are separated. -/
def ofArguments (contents : List Component) : Except Error Color := do
  match contents.filter (fun value => !isSeparator value) with
  | [r, g, b] =>
    return rgba ⟨← channel r, ← channel g, ← channel b, .ofNat 1⟩
  | [r, g, b, a] =>
    return rgba ⟨← channel r, ← channel g, ← channel b, ← alphaArgument a⟩
  | arguments => throw (.argumentCount arguments.length)

/-- The colour of a component value. -/
def parse : Component → Except Error Color
  | .token (.ident name) => ofName name
  | .token (.hash digits) => ofHex digits
  | .function name contents =>
    let lower := Text.lowerAscii name
    if lower = "rgb" || lower = "rgba" then ofArguments contents
    else .error (.unsupportedColorFunction name)
  | value => .error (.invalidColor value.text)

end Color

end StyleProbe.Css
