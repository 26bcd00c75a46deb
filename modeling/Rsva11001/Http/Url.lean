import Rsva11001.Http.Basic

/-!
# `http_parser.c`: URLs, byte by byte

`parse_url_char` is the transition function of the parser between the states of a URL.
-/

namespace Rsva11001.Http

/-- `IS_MARK` -/
def isMark (ch : UInt8) : Bool :=
  ch ∈ text "-_.!~*'()"

/-- `IS_ALPHANUM` -/
def isAlphanum (ch : UInt8) : Bool :=
  isAlpha ch ∨ isNum ch

/-- `IS_USERINFO_CHAR` -/
def isUserinfoChar (ch : UInt8) : Bool :=
  isAlphanum ch ∨ isMark ch ∨ ch ∈ text "%;:&=+$,"

/-- `IS_URL_CHAR`: the bits set in `normal_url_char`. -/
def isUrlChar (ch : UInt8) : Bool :=
  33 ≤ ch ∧ ch ≤ 126 ∧ ch ≠ chr '#' ∧ ch ≠ chr '?'

/-- What `parse_url_char` does in `s_req_server_start` and `s_req_server`. -/
def parseServerChar (ch : UInt8) : State :=
  if ch = chr '/' then .reqPath
  else if ch = chr '?' then .reqQueryStringStart
  else if ch = chr '@' then .reqServerWithAt
  else if isUserinfoChar ch ∨ ch = chr '[' ∨ ch = chr ']' then .reqServer
  else .dead

/-- `parse_url_char` -/
def parseUrlChar (s : State) (ch : UInt8) : State :=
  if ch = SP ∨ ch = CR ∨ ch = LF then .dead
  else if ch = HT ∨ ch = 12 then .dead
  else
    match s with
    | .reqSpacesBeforeUrl =>
      if ch = chr '/' ∨ ch = chr '*' then .reqPath
      else if isAlpha ch then .reqSchema
      else .dead
    | .reqSchema =>
      if isAlpha ch then s
      else if ch = chr ':' then .reqSchemaSlash
      else .dead
    | .reqSchemaSlash => if ch = chr '/' then .reqSchemaSlashSlash else .dead
    | .reqSchemaSlashSlash => if ch = chr '/' then .reqServerStart else .dead
    | .reqServerWithAt => if ch = chr '@' then .dead else parseServerChar ch
    | .reqServerStart | .reqServer => parseServerChar ch
    | .reqPath =>
      if isUrlChar ch then s
      else if ch = chr '?' then .reqQueryStringStart
      else if ch = chr '#' then .reqFragmentStart
      else .dead
    | .reqQueryStringStart | .reqQueryString =>
      if isUrlChar ch then .reqQueryString
      else if ch = chr '?' then .reqQueryString
      else if ch = chr '#' then .reqFragmentStart
      else .dead
    | .reqFragmentStart =>
      if isUrlChar ch then .reqFragment
      else if ch = chr '?' then .reqFragment
      else if ch = chr '#' then s
      else .dead
    | .reqFragment =>
      if isUrlChar ch then s
      else if ch = chr '?' ∨ ch = chr '#' then s
      else .dead
    | _ => .dead

end Rsva11001.Http
