/-
  ArrowLint.Registry.Packaged

  The registry that comes with the linter: an entry for each of its messages, and one
  that speaks for messages without an entry.
-/

import ArrowLint.Registry.Basic

namespace ArrowLint.Registry

/-- The registry that comes with the linter, with an entry for each `Message` and one under
    `defaultKey`. -/
def packaged : Table := [
  ("prefer-arrow._default", .table [
    ("manual_instructions", .text
      "Rewrite the function as an arrow function, keeping its parameters and body."),
    ("proactive_guidance", .text (
      "Write callbacks and helpers as arrow functions unless they need their own this, "
      ++ "arguments, super or new.target."))]),
  ("prefer-arrow.UseArrowWhenFunction", .table [
    ("symbol", .text "use-arrow-when-function"),
    ("display_name", .text "Use Arrow When Function"),
    ("short_description", .text "A plain function can be written as an arrow function."),
    ("message_template", .text "Prefer using arrow functions over plain functions"),
    ("fixable", .bool true),
    ("manual_instructions", .text (
      "Replace `function name(params) \x7b ... \x7d` with `const name = (params) => \x7b "
      ++ "... \x7d;`. Function expressions become `(params) => \x7b ... \x7d` in place. "
      ++ "Object and class members become `name: (params) => ...` and `name = (params) => "
      ++ "...;`.")),
    ("proactive_guidance", .text
      "Prefer arrow functions for functions that do not rely on their own this binding."),
    ("references", .list [
      .text ("https://developer.mozilla.org/en-US/docs/Web/JavaScript/Reference/"
        ++ "Functions/Arrow_functions")])]),
  ("prefer-arrow.UseArrowWhenSingleReturn", .table [
    ("symbol", .text "use-arrow-when-single-return"),
    ("display_name", .text "Use Arrow When Single Return"),
    ("short_description", .text
      "A function whose body is only a return can be an arrow with an implicit return."),
    ("message_template", .text
      "Prefer using arrow functions when the function contains only a return"),
    ("fixable", .bool true),
    ("manual_instructions", .text (
      "Replace `function name(params) \x7b return expr; \x7d` with `const name = (params) "
      ++ "=> expr;`. Wrap object literals in parentheses: `() => (\x7b a: 1 \x7d)`.")),
    ("proactive_guidance", .text
      "Functions that only compute a value read best as expression-bodied arrows.")]),
  ("prefer-arrow.UseExplicit", .table [
    ("symbol", .text "use-explicit"),
    ("display_name", .text "Use Explicit Return"),
    ("short_description", .text
      "Arrow function with an expression body should use a block with a return."),
    ("message_template", .text
      "Prefer using explicit returns when the arrow function contain only a return"),
    ("fixable", .bool true),
    ("manual_instructions", .text
      "Replace `(params) => expr` with `(params) => \x7b return expr \x7d`."),
    ("proactive_guidance", .text
      "With returnStyle=explicit, always give arrow functions a block body.")]),
  ("prefer-arrow.UseImplicit", .table [
    ("symbol", .text "use-implicit"),
    ("display_name", .text "Use Implicit Return"),
    ("short_description", .text
      "Arrow function whose block only returns should use an expression body."),
    ("message_template", .text
      "Prefer using implicit returns when the arrow function contain only a return"),
    ("fixable", .bool true),
    ("manual_instructions", .text
      "Replace `(params) => \x7b return expr; \x7d` with `(params) => expr`."),
    ("proactive_guidance", .text
      "With returnStyle=implicit, drop the braces and return keyword from single-return arrows.")])]

end ArrowLint.Registry
