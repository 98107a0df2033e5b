import JsonnetLens.Text.Basic
/-!
# Shell words

A word as a POSIX shell reads it back: bare when every character is harmless, in single quotes
otherwise, a single quote itself in double quotes.
-/
namespace JsonnetLens.ShellWord

def isHarmless (c : Char) : Bool :=
  c.isAlphanum || "_@%+=:,./-".toList.contains c

def quoteChar (c : Char) : Text := if c = '\'' then "'\"'\"'".toList else [c]

def quote (word : Text) : Text :=
  if word.isEmpty then "''".toList
  else if word.all isHarmless then word
  else '\'' :: word.flatMap quoteChar ++ ['\'']

def join (words : List Text) : Text := Text.join [' '] (words.map quote)

end JsonnetLens.ShellWord
