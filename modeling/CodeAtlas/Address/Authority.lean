import CodeAtlas.Address.Numeric
import CodeAtlas.Failure

/-!
# The authority of an address

What stands between the two slashes of an address and its path: maybe a user, a host, and maybe a
port. A host in brackets has to be a numeric one. Characters that turn into a separator when they
are replaced by their plain forms are refused, because they let one host pass for another.
-/

namespace CodeAtlas.Address

/-! ## Hosts in brackets -/

/-- Checks a host that brackets belong to. -/
def checkHost (host : List Char) : Except Failure Unit :=
  if host.head? == some 'v' then
    if isFutureForm host then .ok () else .error .malformedFutureHost
  else if isIPv4 host then .error .bracketedIPv4
  else if isIPv6 host then .ok ()
  else .error (.unknownHost (String.ofList host))

/-- Checks an authority with brackets. They stand around the host and nothing but a port follows
them. Brackets in front of the last at sign belong to the user, and the host has none. -/
def checkBrackets (authority : List Char) : Except Failure Unit :=
  let hostAndPort := Text.afterLast '@' authority
  match hostAndPort with
  | '[' :: rest =>
    let port := (rest.dropWhile (· != ']')).tail
    if port.isEmpty || port.head? == some ':' then checkHost (Text.beforeFirst ']' rest)
    else .error .malformedAddress
  | _ =>
    if hostAndPort.contains '[' then .error .malformedAddress
    else checkHost (Text.beforeFirst ':' hostAndPort)

/-! ## Lookalikes -/

/-- Characters whose plain form holds a separator of addresses. -/
def lookalikes : List Char :=
  ['\u2047', '\u2048', '\u2049', '\u2100', '\u2101', '\u2105', '\u2106', '\u2a74', '\ufe13',
   '\ufe16', '\ufe55', '\ufe56', '\ufe5f', '\ufe6b', '\uff03', '\uff0f', '\uff1a', '\uff1f',
   '\uff20']

/-- Checks an authority: it has both brackets or neither, what stands in them is a numeric host,
and no character is a lookalike. -/
def checkAuthority (authority : List Char) : Except Failure Unit := do
  if authority.contains '[' != authority.contains ']' then throw .malformedAddress
  if authority.contains '[' then checkBrackets authority
  if authority.any lookalikes.contains then
    throw (.deceptiveAuthority (String.ofList authority))

end CodeAtlas.Address
