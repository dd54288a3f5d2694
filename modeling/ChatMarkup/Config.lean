import ChatMarkup.Html

/-! # Settings

The class names of the HTML fragment, the number of characters after which a summary is cut, and what
stands for the preview of an empty template. Each has a default.
-/
namespace ChatMarkup

structure TemplateSettings where
  truncateAt : Nat := 120
  emptyPreview : String := "Your message preview will appear here..."
  deriving DecidableEq, Repr

structure Config where
  html : Html.ClassNames := {}
  template : TemplateSettings := {}
  deriving DecidableEq, Repr

/-- The largest number of characters that can be set, which is the largest one of 64 bits. -/
def maxTruncateAt : Nat := 18446744073709551615

end ChatMarkup
