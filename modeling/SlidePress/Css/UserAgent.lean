import SlidePress.Css.Stylesheet

/-! The sheet that every document starts from: which elements are blocks, which are not shown, and
the margins, sizes and styles of headings, lists and phrases. -/
namespace SlidePress.Css

namespace UserAgent

/-- Tags with the values that hold for each of them, in the order of the sheet. -/
def defaults : List (List Text × List (Text × Text)) :=
  [(["html", "body", "div", "section", "article", "header", "footer", "main", "nav", "aside",
      "p", "h1", "h2", "h3", "h4", "h5", "h6", "ul", "ol", "li", "blockquote", "figure",
      "figcaption"], [("display", "block")]),
    (["head", "style", "script", "title", "meta", "link", "template"], [("display", "none")]),
    (["body"], [("margin", "8px")]),
    (["p"], [("margin-top", "1em"), ("margin-bottom", "1em")]),
    (["h1"], [("font-size", "2em"), ("margin-top", "0.67em"), ("margin-bottom", "0.67em"),
      ("font-weight", "bold")]),
    (["h2"], [("font-size", "1.5em"), ("margin-top", "0.83em"), ("margin-bottom", "0.83em"),
      ("font-weight", "bold")]),
    (["h3"], [("font-size", "1.17em"), ("margin-top", "1em"), ("margin-bottom", "1em"),
      ("font-weight", "bold")]),
    (["h4"], [("margin-top", "1.33em"), ("margin-bottom", "1.33em"), ("font-weight", "bold")]),
    (["h5"], [("font-size", "0.83em"), ("margin-top", "1.67em"), ("margin-bottom", "1.67em"),
      ("font-weight", "bold")]),
    (["h6"], [("font-size", "0.67em"), ("margin-top", "2.33em"), ("margin-bottom", "2.33em"),
      ("font-weight", "bold")]),
    (["ul", "ol"], [("margin-top", "1em"), ("margin-bottom", "1em"), ("padding-left", "40px")]),
    (["ul"], [("list-style-type", "disc")]),
    (["ol"], [("list-style-type", "decimal")]),
    (["b", "strong"], [("font-weight", "bold")]),
    (["i", "em"], [("font-style", "italic")]),
    (["u"], [("text-decoration", "underline")]),
    (["s"], [("text-decoration", "line-through")]),
    (["a"], [("color", "#0000ee"), ("text-decoration", "underline")]),
    (["code"], [("font-family", "monospace")])]

end UserAgent

def Stylesheet.userAgent : Stylesheet where
  rules := UserAgent.defaults.flatMap fun (tags, values) =>
    let declarations := values.map fun (property, value) => { property, value }
    tags.map fun tag => { source := tag, selector := .ofTag tag, declarations }

end SlidePress.Css
