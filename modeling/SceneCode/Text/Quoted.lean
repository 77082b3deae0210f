namespace SceneCode.Text

def escapeAttributeChar (c : Char) : List Char :=
  if c = '&' then "&amp;".toList
  else if c = '"' then "&quot;".toList
  else [c]

def escapeAttribute (s : String) : String :=
  String.ofList (s.toList.flatMap escapeAttributeChar)

/-- A line break becomes a tag. Quotes are written out, so that text never reads as an attribute, and in JSX curly
braces are, so that it never reads as code. -/
def escapeMarkupChar (jsx : Bool) (c : Char) : List Char :=
  if c = '&' then "&amp;".toList
  else if c = '<' then "&lt;".toList
  else if c = '>' then "&gt;".toList
  else if c = '"' then "&quot;".toList
  else if c = '\n' then "<br/>".toList
  else if jsx && c = '\x7b' then "&#123;".toList
  else if jsx && c = '\x7d' then "&#125;".toList
  else [c]

def escapeMarkup (jsx : Bool) (s : String) : String :=
  String.ofList (s.toList.flatMap (escapeMarkupChar jsx))

def escapeDartChar (c : Char) : List Char :=
  if c = '\\' then ['\\', '\\']
  else if c = '\'' then ['\\', '\'']
  else if c = '$' then ['\\', '$']
  else if c = '\n' then ['\\', 'n']
  else [c]

/-- A string literal of Dart. -/
def dart (s : String) : String :=
  "'" ++ String.ofList (s.toList.flatMap escapeDartChar) ++ "'"

def escapeSwiftChar (c : Char) : List Char :=
  if c = '\\' then ['\\', '\\']
  else if c = '"' then ['\\', '"']
  else if c = '\n' then ['\\', 'n']
  else [c]

/-- A string literal of Swift. -/
def swift (s : String) : String :=
  "\"" ++ String.ofList (s.toList.flatMap escapeSwiftChar) ++ "\""

/-- A value between single quotes in a style object. -/
def escapeSingleQuoteChar (c : Char) : List Char :=
  if c = '\'' then ['\\', '\''] else [c]

def singleQuoted (s : String) : String :=
  "'" ++ String.ofList (s.toList.flatMap escapeSingleQuoteChar) ++ "'"

end SceneCode.Text
