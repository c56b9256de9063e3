import Mockup.Fault

/-!
# Stylesheets

The rules that a conversion collects, and the stylesheet made of them.

* `Stylesheet` — the rules in the order in which nodes are visited;
* `Stylesheet.render` — one line for each rule;
* `Stylesheet.base`, `Stylesheet.container` — the fixed rules.
-/

namespace Mockup

/-- **A rule**: the class of a node and its declaration block. -/
structure Rule where
  className : String
  declarations : String
  deriving DecidableEq

/-- A selector and a block between braces. -/
def Rule.braced (selector block : String) : String := selector ++ " \x7b " ++ block ++ " \x7d"

/-- The line of a rule. -/
def Rule.render (rule : Rule) : String := Rule.braced ("." ++ rule.className) rule.declarations

/-- **The rules collected so far**, in order. -/
abbrev Stylesheet := List Rule

namespace Stylesheet

/-- **The rules as text**, one a line. -/
def render (rules : Stylesheet) : String := "\n".intercalate (rules.map Rule.render)

/-- The rules that every page has. -/
def base : String :=
  "\n".intercalate
    ["body \x7b",
     "  font-family: sans-serif;",
     "  margin: 0;",
     "  padding: 0;",
     "  display: flex;",
     "  justify-content: center;",
     "  align-items: center;",
     "  min-height: 100vh;",
     "  background-color: #f5f5f5;",
     "\x7d",
     "* \x7b box-sizing: border-box; \x7d"]

/-- The class of the box around several artboards. -/
def containerClass : String := "artboards-container"

/-- The rule of the box around several artboards, with a gap between them. -/
def container (gap : Int) : String :=
  Rule.braced ("." ++ containerClass)
    ("display: flex; flex-direction: column; gap: " ++ toString gap
      ++ "px; align-items: center; padding: " ++ toString gap ++ "px;")

end Stylesheet

end Mockup
