import SqlCompose.Profile.Basic
import SqlCompose.Text.Search
import SqlCompose.Text.Utf8

/-!
# Certificates of trusted authorities

A file of certificates is a text with blocks between two boundary lines; whatever stands around the
blocks is passed over. A profile needs the file when it has one and is to trust no other
certificate.

Only the boundaries and the characters between them are looked at; what a certificate says is left
out.
-/

namespace SqlCompose.Postgres

/-- Why there are no certificates. -/
inductive AuthorityFault where
  /-- The file does not exist. -/
  | missing (path : String)
  /-- The file is no text. -/
  | notText (fault : Utf8.Fault)
  /-- The file has no block. -/
  | noBlock

/-- A fault in words. -/
def AuthorityFault.message : AuthorityFault → String
  | .missing path =>
    "Failed to read CA certificate file: " ++ path ++ ": No such file or directory (os error 2)"
  | .notText fault => "CA certificate file is not valid UTF-8: " ++ fault.message
  | .noBlock => "No valid certificates found in PEM data"

/-- The line before a certificate. -/
def beginBoundary : List Char := "-----BEGIN CERTIFICATE-----".toList

/-- The line after a certificate. -/
def endBoundary : List Char := "-----END CERTIFICATE-----".toList

/-- The blocks of a text with their boundaries; the first argument bounds their number. A boundary
may lend its dashes to the next one. -/
def blocks : Nat → List Char → List (List Char)
  | 0, _ => []
  | fuel + 1, text =>
    match Text.splitFirst beginBoundary text with
    | none => []
    | some (_, rest) =>
      match Text.splitFirst endBoundary (beginBoundary ++ rest) with
      | none => []
      | some (block, rest) => (block ++ endBoundary) :: blocks fuel rest

/-- The certificates in the bytes of a file. -/
def certificates (bytes : List UInt8) : Except AuthorityFault (List String) :=
  match Utf8.decode bytes with
  | .error fault => .error (.notText fault)
  | .ok text =>
    match blocks text.length text.toList with
    | [] => .error .noBlock
    | found => .ok (found.map fun block => String.ofList (block ++ ['\n']))

/-- The files that can be read. -/
abbrev Files : Type := String → Option (List UInt8)

/-- The certificates that a profile trusts beside those of the system. -/
def trusted (files : Files) (p : Profile) : Except AuthorityFault (List String) :=
  if p.acceptsAnyCertificate && !p.sslMode.verifies then .ok []
  else
    match p.authorityFile with
    | none => .ok []
    | some path =>
      match files path with
      | none => .error (.missing path)
      | some bytes => certificates bytes

end SqlCompose.Postgres
