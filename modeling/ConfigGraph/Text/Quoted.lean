import ConfigGraph.Text.Printable

/-!
# Quoted texts

Messages show a text in quotes with everything unprintable escaped.  The quote is the apostrophe,
unless the text holds an apostrophe and no double quote.
-/

namespace ConfigGraph.Text

def apostrophe : CodePoint := ⟨0x27, by decide⟩

def doubleQuote : CodePoint := ⟨0x22, by decide⟩

/-- The quote with which a text is shown. -/
def quoteFor (text : Text) : CodePoint :=
  if text.contains apostrophe && !text.contains doubleQuote then doubleQuote else apostrophe

/-- One code point as it stands between quotes. -/
def quoteCodePoint (quote code : CodePoint) : Text :=
  if code = quote ∨ code = '\\' then ['\\', code]
  else if code = '\n' then ['\\', 'n']
  else if code = '\r' then ['\\', 'r']
  else if code = '\t' then ['\\', 't']
  else if code.isPrintable then [code]
  else if code.value < 0x100 then '\\' :: 'x' :: padded 16 2 code.value
  else if code.value < 0x10000 then '\\' :: 'u' :: padded 16 4 code.value
  else '\\' :: 'U' :: padded 16 8 code.value

/-- A text in quotes. -/
def quoted (text : Text) : Text :=
  let quote := quoteFor text
  quote :: text.flatMap (quoteCodePoint quote) ++ [quote]

end ConfigGraph.Text
