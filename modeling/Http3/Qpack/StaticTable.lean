import Http3.Header

/-!
# The static table
-/

namespace Http3.Qpack

def entry (name value : String) : Header := .fromStatic name value

def staticTable : List Header :=
  [entry ":authority" "",
   entry ":path" "/",
   entry "age" "0",
   entry "content-disposition" "",
   entry "content-length" "0",
   entry "cookie" "",
   entry "date" "",
   entry "etag" "",
   entry "if-modified-since" "",
   entry "if-none-match" "",
   entry "last-modified" "",
   entry "link" "",
   entry "location" "",
   entry "referer" "",
   entry "set-cookie" "",
   entry ":method" "CONNECT",
   entry ":method" "DELETE",
   entry ":method" "GET",
   entry ":method" "HEAD",
   entry ":method" "OPTIONS",
   entry ":method" "POST",
   entry ":method" "PUT",
   entry ":scheme" "http",
   entry ":scheme" "https",
   entry ":status" "103",
   entry ":status" "200",
   entry ":status" "304",
   entry ":status" "404",
   entry ":status" "503",
   entry "accept" "*/*",
   entry "accept" "application/dns-message",
   entry "accept-encoding" "gzip, deflate, br",
   entry "accept-ranges" "bytes",
   entry "access-control-allow-headers" "cache-control",
   entry "access-control-allow-headers" "content-type",
   entry "access-control-allow-origin" "*",
   entry "cache-control" "max-age=0",
   entry "cache-control" "max-age=2592000",
   entry "cache-control" "max-age=604800",
   entry "cache-control" "no-cache",
   entry "cache-control" "no-store",
   entry "cache-control" "public, max-age=31536000",
   entry "content-encoding" "br",
   entry "content-encoding" "gzip",
   entry "content-type" "application/dns-message",
   entry "content-type" "application/javascript",
   entry "content-type" "application/json",
   entry "content-type" "application/x-www-form-urlencoded",
   entry "content-type" "image/gif",
   entry "content-type" "image/jpeg",
   entry "content-type" "image/png",
   entry "content-type" "text/css",
   entry "content-type" "text/html; charset=utf-8",
   entry "content-type" "text/plain",
   entry "content-type" "text/plain;charset=utf-8",
   entry "range" "bytes=0-",
   entry "strict-transport-security" "max-age=31536000",
   entry "strict-transport-security" "max-age=31536000; includesubdomains",
   entry "strict-transport-security" "max-age=31536000; includesubdomains; preload",
   entry "vary" "accept-encoding",
   entry "vary" "origin",
   entry "x-content-type-options" "nosniff",
   entry "x-xss-protection" "1; mode=block",
   entry ":status" "100",
   entry ":status" "204",
   entry ":status" "206",
   entry ":status" "302",
   entry ":status" "400",
   entry ":status" "403",
   entry ":status" "421",
   entry ":status" "425",
   entry ":status" "500",
   entry "accept-language" "",
   entry "access-control-allow-credentials" "FALSE",
   entry "access-control-allow-credentials" "TRUE",
   entry "access-control-allow-headers" "*",
   entry "access-control-allow-methods" "get",
   entry "access-control-allow-methods" "get, post, options",
   entry "access-control-allow-methods" "options",
   entry "access-control-expose-headers" "content-length",
   entry "access-control-request-headers" "content-type",
   entry "access-control-request-method" "get",
   entry "access-control-request-method" "post",
   entry "alt-svc" "clear",
   entry "authorization" "",
   entry "content-security-policy" "script-src 'none'; object-src 'none'; base-uri 'none'",
   entry "early-data" "1",
   entry "expect-ct" "",
   entry "forwarded" "",
   entry "if-range" "",
   entry "origin" "",
   entry "purpose" "prefetch",
   entry "server" "",
   entry "timing-allow-origin" "*",
   entry "upgrade-insecure-requests" "1",
   entry "user-agent" "",
   entry "x-forwarded-for" "",
   entry "x-frame-options" "deny",
   entry "x-frame-options" "sameorigin"]

def getStaticEntry (index : Nat) : Option Header := staticTable[index]?

/-- The index of the field itself and that of the first field with its name. -/
def findEntryLoop (name value : Bytes) (nameMatch : Option Nat) (index : Nat) :
    List Header → Option Nat × Option Nat
  | [] => (none, nameMatch)
  | e :: rest =>
    if e.name = name then
      if e.value = value then (some index, some index)
      else findEntryLoop name value (nameMatch <|> some index) (index + 1) rest
    else findEntryLoop name value nameMatch (index + 1) rest

def findStaticEntry (name value : Bytes) : Option Nat × Option Nat :=
  findEntryLoop name value none 0 staticTable

end Http3.Qpack
