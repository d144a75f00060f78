/-! The kinds of tags that the index treats specially; any other text is a kind too. -/
namespace TagIndex.Kind

def function : String := "function"
def parameter : String := "parameter"
def localVariable : String := "local"
def unknown : String := "<unknown>"

/-- Kinds that name a type. -/
def types : List String := ["class", "struct", "typedef"]

/-- Kinds that hold members. -/
def containers : List String := ["class", "struct", "union", "namespace"]

/-- Kinds that enclose the lines after them. -/
def enclosing : List String := ["function", "class", "struct", "namespace"]

/-- Kinds that are visible in the whole file that declares them. -/
def fileLevel : List String := ["member", "variable", "class", "struct", "enum"]

end TagIndex.Kind
