import SqlCompose.Profile.Saved
import SqlCompose.Proofs.Toml.Document

/-!
# Saved profiles loaded again

Profiles that are saved are loaded again in their order, each with all its parts but the password,
which is empty. The file tells nothing about the passwords: two lists of profiles are saved as the
same file if and only if they are the same up to passwords (`Profile.load_writeAll`).
-/

namespace SqlCompose.Profile

/-! ## What is saved -/

/-- A profile with an empty password. -/
def withoutPassword (p : Profile) : Profile := { p with password := "" }

/-- The password is no part that is saved. -/
theorem savedParts_withoutPassword (p : Profile) :
    p.withoutPassword.savedParts = p.savedParts := rfl

/-- Passwords play no part in what is saved. -/
theorem map_savedParts_withoutPassword (profiles : List Profile) :
    (profiles.map withoutPassword).map savedParts = profiles.map savedParts := by
  rw [List.map_map]
  exact List.map_congr_left fun p _ => p.savedParts_withoutPassword

/-- The names of the parts that are saved. -/
def savedNames (p : Profile) : List String :=
  ["name", "provider", "host", "port", "database", "username", "ssl_mode",
    "accept_invalid_certs"] ++ if p.authorityFile.isSome then ["ca_cert_path"] else []

/-- The parts that are saved stand under their names, in order. -/
theorem names_savedParts (p : Profile) : p.savedParts.map Prod.fst = p.savedNames := by
  unfold savedParts savedNames
  cases p.authorityFile <;> rfl

/-- The parts of a profile make a table: distinct bare names with values in range. -/
theorem isTable_savedParts (p : Profile) : Toml.IsTable p.savedParts where
  nodup := by
    rw [names_savedParts, savedNames]
    cases p.authorityFile.isSome <;> decide
  keys pair hpair := by
    have hname : pair.1 ∈ p.savedNames := p.names_savedParts ▸ List.mem_map_of_mem hpair
    have hpart : ∀ name ∈ p.savedNames,
        name.toList ≠ [] ∧ ∀ c ∈ name.toList, Toml.isKeyChar c = true := by
      unfold savedNames
      cases p.authorityFile.isSome <;> decide
    exact ⟨(hpart _ hname).1, (hpart _ hname).2⟩
  values := by
    have htcpPort : (Toml.Scalar.natural p.tcpPort.toNat).Fits :=
      Nat.lt_trans p.tcpPort.toNat_lt (by decide)
    unfold savedParts
    cases p.authorityFile <;> simp [htcpPort]

/-! ## What is loaded -/

/-- An encryption mode is found by its name. -/
theorem ofName?_name (mode : SslMode) : SslMode.ofName? mode.name = some mode := by
  cases mode <;> decide

/-- A port is read back from the integer it is saved as. -/
theorem tcpPortOfToml?_toNat (n : UInt16) : tcpPortOfToml? (.integer n.toNat) = some n := by
  have hbound := n.toNat_lt
  have hrange : (0 : Int) ≤ n.toNat ∧ (n.toNat : Int) < 65536 := by omega
  rw [tcpPortOfToml?, if_pos hrange, Int.toNat_natCast, UInt16.ofNat_toNat]

/-- The parts that are saved make up the profile without its password. -/
theorem ofToml?_tableOf (p : Profile) :
    ofToml? (Toml.tableOf p.savedParts) = some p.withoutPassword := by
  have htcpPort : ((p.savedParts.lookup "port").map Toml.Scalar.toToml).bind tcpPortOfToml? =
      some p.tcpPort := by
    have hpart : p.savedParts.lookup "port" = some (.natural p.tcpPort.toNat) := rfl
    rw [hpart, Option.map_some, Option.bind_some]
    exact tcpPortOfToml?_toNat p.tcpPort
  have hsslMode (mode : SslMode) : optionalPart SslMode.ofToml? mode
      ((p.savedParts.lookup "ssl_mode").map Toml.Scalar.toToml) = some p.sslMode :=
    ofName?_name p.sslMode
  rw [Toml.tableOf, ofToml?]
  simp only [Toml.get?_membersOf p.isTable_savedParts.nodup, ofParts?, htcpPort, hsslMode]
  unfold savedParts withoutPassword
  cases p.authorityFile <;> rfl

/-- The tables of profiles are read as those profiles without their passwords. -/
theorem mapM_ofToml? (profiles : List Profile) :
    ((profiles.map savedParts).map Toml.tableOf).mapM ofToml? =
      some (profiles.map withoutPassword) := by
  induction profiles with
  | nil => rfl
  | cons p profiles ih =>
    rw [List.map_cons, List.map_cons, List.mapM_cons, ofToml?_tableOf, ih]
    rfl

/-! ## Saving and loading -/

section Quote

variable {quote : String → String} (hquote : ∀ s, Toml.Spells (quote s).toList s.toList)

include hquote

/-- Profiles that were written with any quoting are loaded without their passwords, in order. -/
theorem load_writeAllWith (profiles : List Profile) :
    load (some (writeAllWith quote profiles)) = .ok (profiles.map withoutPassword) := by
  have hkey : Toml.IsBareKey fileKey := ⟨by decide, by decide⟩
  have htables : ∀ pairs ∈ profiles.map savedParts, Toml.IsTable pairs := by
    intro pairs hpairs
    obtain ⟨p, -, rfl⟩ := List.mem_map.mp hpairs
    exact p.isTable_savedParts
  have hdocument := Toml.readDocument?_writeTables hquote hkey htables
  have hread : readAll? (writeAllWith quote profiles) = some (profiles.map withoutPassword) := by
    rw [readAll?, writeAllWith, hdocument]
    have hitems := mapM_ofToml? profiles
    cases profiles with
    | nil => rfl
    | cons p profiles => exact hitems
  rw [load, hread]

/-- A file tells everything but the passwords. -/
theorem writeAllWith_eq_iff {profiles others : List Profile} :
    writeAllWith quote others = writeAllWith quote profiles ↔
      others.map withoutPassword = profiles.map withoutPassword := by
  constructor
  · intro hfile
    have hothers := load_writeAllWith hquote others
    rw [hfile, load_writeAllWith hquote profiles] at hothers
    exact (Except.ok.inj hothers).symm
  · intro hprofiles
    have hparts : others.map savedParts = profiles.map savedParts := by
      rw [← map_savedParts_withoutPassword others, hprofiles, map_savedParts_withoutPassword]
    rw [writeAllWith, writeAllWith, hparts]

end Quote

/-- Saved profiles are loaded in their order, each as it is but without its password; and two lists
of profiles are saved as the same file if and only if they are the same without their passwords.
Neither depends on which texts the strings are written as, as long as these stand for them. -/
theorem load_writeAll (profiles : List Profile) :
    load (some (writeAll profiles)) = .ok (profiles.map withoutPassword) ∧
    (∀ others : List Profile, writeAll others = writeAll profiles ↔
      others.map withoutPassword = profiles.map withoutPassword) ∧
    ∀ quote : String → String, (∀ s, Toml.Spells (quote s).toList s.toList) →
      load (some (writeAllWith quote profiles)) = .ok (profiles.map withoutPassword) ∧
      ∀ others : List Profile, writeAllWith quote others = writeAllWith quote profiles ↔
        others.map withoutPassword = profiles.map withoutPassword :=
  ⟨load_writeAllWith Toml.spells_quote profiles,
    fun _ => writeAllWith_eq_iff Toml.spells_quote,
    fun _ hquote => ⟨load_writeAllWith hquote profiles, fun _ => writeAllWith_eq_iff hquote⟩⟩

end SqlCompose.Profile
