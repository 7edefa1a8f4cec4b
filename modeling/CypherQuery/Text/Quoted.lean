/-! # Quoted text

The two quotations of query text. A name between back-quotes (`QuotedName`) may hold any character;
a back-quote in it is written twice. A string between single quotes (`QuotedString`) may hold any
character; a backslash or a single quote in it follows a backslash. Strings are read in a wider
form, between single or double quotes and with escapes for line feed, tab and carriage return.
What is written is read back: `decode?_double` for names, `unescape_escape` and `body_escape` for
strings. -/

namespace CypherQuery

/-- The quotation mark of names, U+0060. -/
def backQuote : Char :=
  '\x60'

/-- The quotation mark that strings are written with. -/
def singleQuote : Char :=
  '\x27'

/-- The other quotation mark that strings are read with. -/
def doubleQuote : Char :=
  '\x22'

/-- The mark before an escaped character of a string. -/
def backslash : Char :=
  '\x5c'

namespace QuotedName

/-- A name with each `backQuote` in it written twice. -/
def double : List Char → List Char
  | [] => []
  | c :: name => if c = backQuote then backQuote :: backQuote :: double name else c :: double name

/-- A name between back-quotes, its own ones doubled by `double`. -/
def encode (name : List Char) : List Char :=
  backQuote :: double name ++ [backQuote]

/-- The name that starts behind an opening back-quote, and what follows its closing one. Two
back-quotes in a row always belong to the name; without a closing back-quote there is no name. -/
def decode? : List Char → Option (List Char × List Char)
  | [] => none
  | c :: text =>
      if c = backQuote then
        -- Only a back-quote without another one behind it ends the name.
        match text with
        | [] => some ([], [])
        | d :: rest =>
            if d = backQuote then
              (decode? rest).map fun (name, rest) => (backQuote :: name, rest)
            else some ([], d :: rest)
      else (decode? text).map fun (name, rest) => (c :: name, rest)

/-- A character other than a `backQuote` belongs to the name that `decode?` reads. -/
theorem decode?_cons {c : Char} (other : c ≠ backQuote) (text : List Char) :
    decode? (c :: text) = (decode? text).map fun (name, rest) => (c :: name, rest) := by
  cases text <;> simp [decode?, other]

/-- A quoted name is read back: `decode?` takes `double name` and the closing mark to `name`,
whatever follows that is not another back-quote. -/
theorem decode?_double (name rest : List Char) (stop : rest.head? ≠ some backQuote) :
    decode? (double name ++ backQuote :: rest) = some (name, rest) := by
  induction name with
  | nil =>
      cases rest with
      | nil => simp [double, decode?]
      | cons d rest =>
          have other : d ≠ backQuote := fun same => stop (by simp [same])
          simp [double, decode?, other]
  | cons c name ih =>
      by_cases quote : c = backQuote
      · subst quote; simp [double, decode?, ih]
      · simp [double, decode?_cons quote, quote, ih]

/-- What `decode?` reads as a quoted name is the written form `double name` of that name, and no
back-quote follows. -/
theorem eq_double_of_decode? {text name rest : List Char}
    (read : decode? text = some (name, rest)) :
    text = double name ++ backQuote :: rest ∧ rest.head? ≠ some backQuote := by
  fun_induction decode? text generalizing name rest with
  | case1 => cases read
  | case2 => cases read; exact ⟨rfl, by simp⟩
  | case3 tail ih =>
      obtain ⟨⟨inner, after⟩, inside, pair⟩ := Option.map_eq_some_iff.mp read
      cases pair
      obtain ⟨split, stop⟩ := ih inside
      exact ⟨by simp [double, split], stop⟩
  | case4 d tail other =>
      cases read
      exact ⟨rfl, by simpa using other⟩
  | case5 c tail other ih =>
      obtain ⟨⟨inner, after⟩, inside, pair⟩ := Option.map_eq_some_iff.mp read
      cases pair
      obtain ⟨split, stop⟩ := ih inside
      exact ⟨by simp [double, other, split], stop⟩

end QuotedName

namespace QuotedString

/-- A string with a `backslash` before each backslash and each single quote. -/
def escape : List Char → List Char
  | [] => []
  | c :: text =>
      if c = backslash ∨ c = singleQuote then backslash :: c :: escape text else c :: escape text

/-- A string between single quotes, its own ones escaped by `escape`. -/
def encode (text : List Char) : List Char :=
  singleQuote :: escape text ++ [singleQuote]

/-- The character that an escaped character stands for: `n`, `t` and `r` have meanings of their own,
others stand for themselves. -/
def escaped (c : Char) : Char :=
  if c = 'n' then '\n' else if c = 't' then '\t' else if c = 'r' then '\r' else c

/-- The string that the text between two quotation marks stands for; a `backslash` at the end stands
for itself. -/
def unescape : List Char → List Char
  | [] => []
  | c :: text =>
      if c = backslash then
        match text with
        | [] => [backslash]
        | d :: rest => escaped d :: unescape rest
      else c :: unescape text

/-- The longest start of a text that can stand between two quotation marks `quote`, and the rest. A
`backslash` takes the next character with it, unless that is a line feed or missing. -/
def body (quote : Char) : List Char → List Char × List Char
  | [] => ([], [])
  | c :: text =>
      if c = quote then ([], c :: text)
      else if c = backslash then
        match text with
        | [] => ([], [c])
        | d :: rest =>
            -- A backslash that ends a line belongs to no string.
            if d = '\n' then ([], c :: d :: rest)
            else
              let (inner, after) := body quote rest
              (c :: d :: inner, after)
      else
        let (inner, after) := body quote text
        (c :: inner, after)

/-- A character other than the `backslash` stands for itself. -/
theorem unescape_cons {c : Char} (plain : c ≠ backslash) (text : List Char) :
    unescape (c :: text) = c :: unescape text := by
  cases text <;> simp [unescape, plain]

/-- A `body` ends before its quotation mark. -/
theorem body_quote (quote : Char) (text : List Char) :
    body quote (quote :: text) = ([], quote :: text) := by
  cases text <;> simp [body]

/-- A character other than the quotation mark and the `backslash` belongs to the `body`. -/
theorem body_cons {quote c : Char} (inside : c ≠ quote) (plain : c ≠ backslash)
    (text : List Char) :
    body quote (c :: text) = (c :: (body quote text).1, (body quote text).2) := by
  cases text <;> simp [body, inside, plain]

/-- The `body` of a string and the rest make up the text. -/
theorem body_append (quote : Char) (text : List Char) :
    (body quote text).1 ++ (body quote text).2 = text := by
  fun_induction body quote text <;> simp_all

/-- What is written for a string stands for that string: `unescape` undoes `escape`. -/
theorem unescape_escape (text : List Char) : unescape (escape text) = text := by
  induction text with
  | nil => rfl
  | cons c text ih =>
      by_cases slash : c = backslash
      · subst slash; simp [escape, unescape, ih]; decide
      · by_cases quote : c = singleQuote
        · subst quote; simp [escape, unescape, ih]; decide
        · simp [escape, unescape_cons slash, slash, quote, ih]

/-- What is written for a string, `escape text`, is taken whole as the `body` of a quoted string. -/
theorem body_escape (text rest : List Char) :
    body singleQuote (escape text ++ singleQuote :: rest) = (escape text, singleQuote :: rest) := by
  have apart : backslash ≠ singleQuote := by decide
  have slash_visible : backslash ≠ '\n' := by decide
  have quote_visible : singleQuote ≠ '\n' := by decide
  induction text with
  | nil => simp [escape, body_quote]
  | cons c text ih =>
      by_cases slash : c = backslash
      · subst slash; simp [escape, body, ih, apart, slash_visible]
      · by_cases quote : c = singleQuote
        · subst quote; simp [escape, body, ih, apart, quote_visible]
        · simp [escape, body_cons quote slash, ih, slash, quote]

end QuotedString

end CypherQuery
