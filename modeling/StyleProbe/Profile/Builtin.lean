import StyleProbe.Profile

/-!
# Built-in profiles

Five browser generations. They are found by name in any ASCII case.
-/

namespace StyleProbe

namespace ProfileSource

/-- Current engines. -/
def modern : ProfileSource where
  name := "modern"
  description :=
    "Evergreen engine: standard properties, a few -webkit- aliases kept for " ++
      "compatibility"
  properties := [
    { name := "display"
      keywords :=
        ["block", "inline", "inline-block", "flex", "inline-flex", "grid",
         "inline-grid", "flow-root", "contents", "none", "table", "table-row",
         "table-cell", "list-item", "-webkit-box", "-webkit-inline-box",
         "-webkit-flex", "-webkit-inline-flex"] },
    { name := "transform"
      keywords := ["none"]
      functions :=
        ["matrix", "matrix3d", "translate", "translatex", "translatey",
         "translate3d", "scale", "scalex", "scaley", "scale3d", "rotate",
         "rotatex", "rotatey", "rotate3d", "skew", "skewx", "skewy",
         "perspective"] },
    { name := "transition"
      types := [.any] },
    { name := "animation"
      types := [.any] },
    { name := "user-select"
      keywords := ["auto", "none", "text", "all", "contain"] },
    { name := "-webkit-user-select"
      keywords := ["auto", "none", "text", "all"] },
    { name := "box-sizing"
      keywords := ["content-box", "border-box"] },
    { name := "appearance"
      keywords := ["none", "auto", "menulist-button", "textfield"] },
    { name := "-webkit-appearance"
      keywords :=
        ["none", "auto", "menulist-button", "textfield", "button", "checkbox",
         "radio"] },
    { name := "-webkit-line-clamp"
      keywords := ["none"]
      types := [.number] },
    { name := "backdrop-filter"
      keywords := ["none"]
      functions :=
        ["blur", "brightness", "contrast", "grayscale", "saturate", "opacity"] },
    { name := "position"
      keywords := ["static", "relative", "absolute", "fixed", "sticky"] },
    { name := "color"
      types := [.color] },
    { name := "background-color"
      types := [.color] },
    { name := "background-image"
      keywords := ["none"]
      functions :=
        ["url", "linear-gradient", "radial-gradient", "conic-gradient",
         "repeating-linear-gradient", "image-set"] },
    { name := "opacity"
      types := [.number, .percentage] },
    { name := "width"
      keywords := ["auto", "min-content", "max-content", "fit-content"]
      types := [.length, .percentage] },
    { name := "height"
      keywords := ["auto", "min-content", "max-content", "fit-content"]
      types := [.length, .percentage] },
    { name := "margin"
      keywords := ["auto"]
      types := [.length, .percentage] },
    { name := "border-radius"
      types := [.length, .percentage] }]

/-- The `-webkit-` generation. -/
def webkitLegacy : ProfileSource where
  name := "webkit-legacy"
  description :=
    "WebKit around 2012: transforms, transitions and flexbox behind " ++
      "-webkit-"
  properties := [
    { name := "display"
      keywords :=
        ["block", "inline", "inline-block", "none", "table", "table-row",
         "table-cell", "list-item", "-webkit-box", "-webkit-inline-box",
         "-webkit-flex", "-webkit-inline-flex"] },
    { name := "-webkit-transform"
      keywords := ["none"]
      functions :=
        ["matrix", "matrix3d", "translate", "translatex", "translatey",
         "translate3d", "scale", "scalex", "scaley", "scale3d", "rotate",
         "rotatex", "rotatey", "rotate3d", "skew", "skewx", "skewy",
         "perspective"] },
    { name := "-webkit-transition"
      types := [.any] },
    { name := "-webkit-animation"
      types := [.any] },
    { name := "-webkit-user-select"
      keywords := ["auto", "none", "text", "all"] },
    { name := "-webkit-box-sizing"
      keywords := ["content-box", "border-box"] },
    { name := "-webkit-box-flex"
      types := [.number] },
    { name := "-webkit-box-orient"
      keywords := ["horizontal", "vertical", "inline-axis", "block-axis"] },
    { name := "-webkit-flex"
      keywords := ["none", "auto"]
      types := [.any] },
    { name := "-webkit-appearance"
      keywords :=
        ["none", "button", "checkbox", "radio", "textfield", "menulist"] },
    { name := "position"
      keywords := ["static", "relative", "absolute", "fixed", "-webkit-sticky"] },
    { name := "color"
      types := [.color] },
    { name := "background-color"
      types := [.color] },
    { name := "background-image"
      keywords := ["none"]
      functions :=
        ["url", "-webkit-linear-gradient", "-webkit-radial-gradient",
         "-webkit-gradient"] },
    { name := "opacity"
      types := [.number] },
    { name := "width"
      keywords := ["auto"]
      types := [.length, .percentage] },
    { name := "height"
      keywords := ["auto"]
      types := [.length, .percentage] },
    { name := "margin"
      keywords := ["auto"]
      types := [.length, .percentage] },
    { name := "border-radius"
      types := [.length, .percentage] }]

/-- The `-moz-` generation. -/
def geckoLegacy : ProfileSource where
  name := "gecko-legacy"
  description :=
    "Gecko around 2011: -moz- transforms, transitions and the XUL box model"
  properties := [
    { name := "display"
      keywords :=
        ["block", "inline", "inline-block", "none", "table", "table-row",
         "table-cell", "list-item", "-moz-box", "-moz-inline-box"] },
    { name := "-moz-transform"
      keywords := ["none"]
      functions :=
        ["matrix", "translate", "translatex", "translatey", "scale", "scalex",
         "scaley", "rotate", "skew", "skewx", "skewy"] },
    { name := "-moz-transition"
      types := [.any] },
    { name := "-moz-animation"
      types := [.any] },
    { name := "-moz-user-select"
      keywords := ["auto", "none", "text", "all", "-moz-none"] },
    { name := "-moz-box-sizing"
      keywords := ["content-box", "border-box", "padding-box"] },
    { name := "-moz-box-flex"
      types := [.number] },
    { name := "-moz-appearance"
      keywords :=
        ["none", "button", "checkbox", "radio", "textfield", "menulist"] },
    { name := "position"
      keywords := ["static", "relative", "absolute", "fixed"] },
    { name := "color"
      types := [.color] },
    { name := "background-color"
      types := [.color] },
    { name := "background-image"
      keywords := ["none"]
      functions := ["url", "-moz-linear-gradient", "-moz-radial-gradient"] },
    { name := "opacity"
      types := [.number] },
    { name := "width"
      keywords := ["auto", "-moz-max-content", "-moz-min-content"]
      types := [.length, .percentage] },
    { name := "height"
      keywords := ["auto"]
      types := [.length, .percentage] },
    { name := "margin"
      keywords := ["auto"]
      types := [.length, .percentage] },
    { name := "border-radius"
      types := [.length, .percentage] }]

/-- The `-ms-` generation. -/
def trident : ProfileSource where
  name := "trident"
  description := "Trident 6 (IE10): -ms- transforms and the 2012 flexbox draft"
  properties := [
    { name := "display"
      keywords :=
        ["block", "inline", "inline-block", "none", "table", "table-row",
         "table-cell", "list-item", "-ms-flexbox", "-ms-inline-flexbox",
         "-ms-grid", "-ms-inline-grid"] },
    { name := "-ms-transform"
      keywords := ["none"]
      functions :=
        ["matrix", "translate", "translatex", "translatey", "scale", "scalex",
         "scaley", "rotate", "skew", "skewx", "skewy"] },
    { name := "transition"
      types := [.any] },
    { name := "animation"
      types := [.any] },
    { name := "-ms-user-select"
      keywords := ["auto", "none", "text", "element"] },
    { name := "box-sizing"
      keywords := ["content-box", "border-box"] },
    { name := "-ms-flex"
      keywords := ["none", "auto"]
      types := [.any] },
    { name := "position"
      keywords := ["static", "relative", "absolute", "fixed"] },
    { name := "color"
      types := [.color] },
    { name := "background-color"
      types := [.color] },
    { name := "background-image"
      keywords := ["none"]
      functions :=
        ["url", "linear-gradient", "radial-gradient", "-ms-linear-gradient",
         "-ms-radial-gradient"] },
    { name := "opacity"
      types := [.number] },
    { name := "width"
      keywords := ["auto"]
      types := [.length, .percentage] },
    { name := "height"
      keywords := ["auto"]
      types := [.length, .percentage] },
    { name := "margin"
      keywords := ["auto"]
      types := [.length, .percentage] },
    { name := "border-radius"
      types := [.length, .percentage] }]

/-- The `-o-` generation. -/
def presto : ProfileSource where
  name := "presto"
  description :=
    "Presto 2.12 (Opera 12): -o- transforms and transitions, unprefixed " ++
      "flexbox"
  properties := [
    { name := "display"
      keywords :=
        ["block", "inline", "inline-block", "none", "table", "table-row",
         "table-cell", "list-item", "flex", "inline-flex"] },
    { name := "-o-transform"
      keywords := ["none"]
      functions :=
        ["matrix", "translate", "translatex", "translatey", "scale", "scalex",
         "scaley", "rotate", "skew", "skewx", "skewy"] },
    { name := "-o-transition"
      types := [.any] },
    { name := "animation"
      types := [.any] },
    { name := "box-sizing"
      keywords := ["content-box", "border-box"] },
    { name := "flex"
      keywords := ["none", "auto"]
      types := [.any] },
    { name := "position"
      keywords := ["static", "relative", "absolute", "fixed"] },
    { name := "color"
      types := [.color] },
    { name := "background-color"
      types := [.color] },
    { name := "background-image"
      keywords := ["none"]
      functions :=
        ["url", "linear-gradient", "-o-linear-gradient", "-o-radial-gradient"] },
    { name := "opacity"
      types := [.number] },
    { name := "width"
      keywords := ["auto"]
      types := [.length, .percentage] },
    { name := "height"
      keywords := ["auto"]
      types := [.length, .percentage] },
    { name := "margin"
      keywords := ["auto"]
      types := [.length, .percentage] },
    { name := "border-radius"
      types := [.length, .percentage] }]

/-- The built-in profiles by name, in the order in which they are listed. -/
def builtins : List (String × ProfileSource) :=
  [("modern", modern), ("webkit-legacy", webkitLegacy),
   ("gecko-legacy", geckoLegacy), ("trident", trident),
   ("presto", presto)]

end ProfileSource

namespace Profile

/-- The names of the built-in profiles. -/
def builtinNames : List String := ProfileSource.builtins.map (·.1)

/-- The built-in profile of the given name, in any ASCII case. -/
def builtin (name : String) : Except ProfileError Profile :=
  match ProfileSource.builtins.find?
      (fun entry => Text.sameIgnoringCase entry.1 name) with
  | some (_, source) => ofSource source
  | none => .error (.unknown name)

end Profile

end StyleProbe
