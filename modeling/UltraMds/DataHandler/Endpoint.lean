import UltraMds.DataHandler.ConfigLayers
import UltraMds.DataHandler.UnitProcessor

/-!
# The endpoint of a contract

The port of a contract goes from a JSON integer through an `int` into the 16 bits of an endpoint,
and no step checks it.  `configured_endpoint_iff` says for which integers the endpoint has the
configured port, and which ports share an endpoint.
-/

namespace UltraMds

/-! ### The two conversions of a port -/

/-- Cut to 32 bits and then to 16, a number keeps its residue. -/
theorem toNat_ofInt_toInt (n : ℤ) : ((BitVec.ofInt 16 (toInt n)).toNat : ℤ) = n % 65536 := by
  have hdvd : (65536 : ℤ) ∣ ((2 ^ 32 : ℕ) : ℤ) := ⟨65536, by norm_num⟩
  have hcut : toInt n % 65536 = n % 65536 := by
    rw [← Int.emod_emod_of_dvd (toInt n) hdvd, toInt, Int.bmod_emod,
      Int.emod_emod_of_dvd n hdvd]
  rw [BitVec.toNat_ofInt, Int.toNat_of_nonneg (Int.emod_nonneg _ (by norm_num))]
  exact hcut

theorem ofInt_toInt_eq_iff (m n : ℤ) :
    BitVec.ofInt 16 (toInt m) = BitVec.ofInt 16 (toInt n) ↔ m % 65536 = n % 65536 := by
  rw [← toNat_ofInt_toInt m, ← toNat_ofInt_toInt n, Nat.cast_inj, BitVec.toNat_inj]

/-! ### The rules in effect -/

section

variable (globalJson : Json) (contractJson : Option Json)

/-- The value of a key in the rules: the contract's, or else the global one. -/
def effective (key : String) : Option Json :=
  (contractJson.bind fun cJson => cJson.find? key).or (globalJson.find? key)

/-- The address text in effect, when it is a string. -/
def effectiveText : Option String :=
  match effective globalJson contractJson "Multi_add" with
  | some j => j.string?
  | none => some ""

/-- The port in effect, when it is an integer. -/
def effectivePort : Option ℤ :=
  match effective globalJson contractJson "port" with
  | some j => j.integer?
  | none => some 8888

/-- The rules ask for the endpoint of this address and port. -/
structure Configured (makeAddress : String → Option Address) (address : Address) (port : ℤ) :
    Prop where
  address : (effectiveText globalJson contractJson).bind makeAddress = some address
  port : effectivePort globalJson contractJson = some port

variable {globalJson contractJson}

theorem effectiveText_eq_elim : effectiveText globalJson contractJson =
    (effective globalJson contractJson "Multi_add").elim (some "") Json.string? := by
  unfold effectiveText
  cases effective globalJson contractJson "Multi_add" <;> rfl

theorem effectivePort_eq_elim : effectivePort globalJson contractJson =
    (effective globalJson contractJson "port").elim (some 8888) Json.integer? := by
  unfold effectivePort
  cases effective globalJson contractJson "port" <;> rfl

theorem eq_of_reads_text {text text' : String}
    (h : Json.Reads Json.getString (effective globalJson contractJson "Multi_add") "" text)
    (h' : effectiveText globalJson contractJson = some text') : text = text' := by
  rw [effectiveText_eq_elim] at h'
  refine Json.Reads.eq_of_typed Json.string? id (fun j s hj => ?_) h h'
  cases j with
  | string s' => exact congrArg Except.ok (Option.some.inj hj)
  | _ => cases hj

theorem eq_of_reads_port {port P : ℤ}
    (h : Json.Reads Json.getInt (effective globalJson contractJson "port") 8888 port)
    (h' : effectivePort globalJson contractJson = some P) : port = toInt P := by
  have hdefault : toInt 8888 = 8888 := by decide
  rw [← hdefault] at h
  rw [effectivePort_eq_elim] at h'
  refine Json.Reads.eq_of_typed Json.integer? toInt (fun j n hj => ?_) h h'
  cases j with
  | numberInteger n' => exact congrArg (fun n => Except.ok (toInt n)) (Option.some.inj hj)
  | _ => cases hj

end

namespace SpecialConfig

variable {makeAddress : String → Option Address} {globalJson : Json} {contractJson : Option Json}

/-- What one layer does to the endpoint's rules, `find?` being its way to look up a key. -/
def LayerReads (find? : String → Option Json) (config config' : SpecialConfig) : Prop :=
  ∃ port multiAdd,
    Json.Reads Json.getInt (find? "port") config.mUdpConfig.port port ∧
    Json.Reads Json.getString (find? "Multi_add") config.mUdpConfig.multiAdd multiAdd ∧
    config'.mUdpConfig = { config.mUdpConfig with port, multiAdd }

theorem globalLayer_reads {config config' : SpecialConfig}
    (h : config.globalLayer globalJson = .ok config') :
    LayerReads globalJson.find? config config' := by
  unfold globalLayer at h
  split at h
  · rename_i hnull
    cases h
    cases globalJson with
    | null => exact ⟨_, _, rfl, rfl, rfl⟩
    | _ => cases hnull
  · unfold loadGlobal at h
    obtain ⟨port, hport, h⟩ := Fallible.exists_of_bind_eq_ok h
    obtain ⟨multiAdd, hmultiAdd, h⟩ := Fallible.exists_of_bind_eq_ok h
    iterate 14 obtain ⟨_, -, h⟩ := Fallible.exists_of_bind_eq_ok h
    cases h
    exact ⟨port, multiAdd, Json.reads_of_value hport, Json.reads_of_value hmultiAdd, rfl⟩

theorem contractLayer_reads {config config' : SpecialConfig}
    (h : config.contractLayer contractJson = .ok config') :
    LayerReads (fun key => contractJson.bind fun cJson => cJson.find? key) config config' := by
  cases contractJson with
  | none =>
    cases h
    exact ⟨_, _, rfl, rfl, rfl⟩
  | some cJson =>
    simp only [contractLayer] at h
    split at h
    · rename_i hnull
      cases h
      cases cJson with
      | null => exact ⟨_, _, rfl, rfl, rfl⟩
      | _ => cases hnull
    · unfold loadContract at h
      obtain ⟨port, hport, h⟩ := Fallible.exists_of_bind_eq_ok h
      obtain ⟨multiAdd, hmultiAdd, h⟩ := Fallible.exists_of_bind_eq_ok h
      iterate 14 obtain ⟨_, -, h⟩ := Fallible.exists_of_bind_eq_ok h
      cases h
      exact ⟨port, multiAdd, Json.reads_of_assign hport, Json.reads_of_assign hmultiAdd, rfl⟩

/-- The text and the port that are left for the endpoint are the ones in effect. -/
theorem fromJson_udpConfig {config : SpecialConfig} {address : Address} {P : ℤ}
    (h : fromJson makeAddress globalJson contractJson = .ok config)
    (hc : Configured globalJson contractJson makeAddress address P) :
    ∃ text, config.mUdpConfig =
      { multiAdd := text, port := toInt P
        targetEndpoint := { address, port := BitVec.ofInt 16 (toInt P) } } := by
  unfold fromJson at h
  obtain ⟨config₁, hglobal, h⟩ := Fallible.exists_of_bind_eq_ok h
  obtain ⟨config₂, hcontract, h⟩ := Fallible.exists_of_bind_eq_ok h
  cases h
  obtain ⟨port₁, text₁, hport₁, htext₁, hudp₁⟩ := globalLayer_reads hglobal
  obtain ⟨port₂, text₂, hport₂, htext₂, hudp₂⟩ := contractLayer_reads hcontract
  rw [hudp₁] at hport₂ htext₂ hudp₂
  obtain ⟨text, htext, haddress⟩ := Option.bind_eq_some_iff.1 hc.address
  have hP : port₂ = toInt P := eq_of_reads_port (hport₁.trans hport₂) hc.port
  have htext' : text₂ = text := eq_of_reads_text (htext₁.trans htext₂) htext
  subst hP htext'
  refine ⟨text₂, ?_⟩
  simp only [setEndpoint, hudp₂, haddress]

end SpecialConfig

/-! ### The endpoint -/

theorem UnitProcessor.construct_udpConfig {makeAddress : String → Option Address} {name : String}
    {globalJson : Json} {contractJson : Option Json} {u : UnitProcessor} {address : Address}
    {P : ℤ} (hu : construct makeAddress name globalJson contractJson = .ok u)
    (hc : Configured globalJson contractJson makeAddress address P) :
    ∃ text, u.mConfig.mUdpConfig =
      { multiAdd := text, port := toInt P
        targetEndpoint := { address, port := BitVec.ofInt 16 (toInt P) } } := by
  unfold construct at hu
  obtain ⟨config, hconfig, hu⟩ := Fallible.exists_of_bind_eq_ok hu
  cases hu
  exact SpecialConfig.fromJson_udpConfig hconfig hc

open UnitProcessor in
/-- **Where a contract is forwarded to.**  The validator of a contract with the address `address`
and the integer port `P` in effect has that endpoint, or is handled as one without an address,
exactly when `P` fits into 16 bits; and contracts with the same address keep apart exactly when
their ports, if they differ, differ modulo `65536`. -/
theorem configured_endpoint_iff (makeAddress : String → Option Address) {name : String}
    {globalJson : Json} {contractJson : Option Json} {u : UnitProcessor} {address : Address}
    {P : ℤ} (hu : construct makeAddress name globalJson contractJson = .ok u)
    (hc : Configured globalJson contractJson makeAddress address P) :
    ((u.getMulticastEndpoint.address = address ∧ (u.getMulticastEndpoint.port.toNat : ℤ) = P) ∨
        u.mConfig.mUdpConfig = {} ↔ 0 ≤ P ∧ P < 65536) ∧
      ∀ (name' : String) (globalJson' : Json) (contractJson' : Option Json) (u' : UnitProcessor)
        (P' : ℤ), construct makeAddress name' globalJson' contractJson' = .ok u' →
        Configured globalJson' contractJson' makeAddress address P' →
          ((P ≠ P' → u.getMulticastEndpoint ≠ u'.getMulticastEndpoint) ↔
            P = P' ∨ P % 65536 ≠ P' % 65536) := by
  obtain ⟨text, hudp⟩ := construct_udpConfig hu hc
  have hend : u.getMulticastEndpoint = ⟨address, BitVec.ofInt 16 (toInt P)⟩ := by
    rw [getMulticastEndpoint, hudp]
  constructor
  · have hport := toNat_ofInt_toInt P
    -- a parsed address is never handled as invalid
    have hvalid : u.mConfig.mUdpConfig ≠ {} := by
      intro hdefault
      rw [hudp] at hdefault
      obtain ⟨-, hP, hendpoint⟩ := UDPConfig.mk.inj hdefault
      rw [hP] at hendpoint
      exact absurd (Endpoint.mk.inj hendpoint).2 (by decide)
    rw [hend, or_iff_left hvalid, hport]
    simp only [true_and]
    omega
  · intro name' globalJson' contractJson' u' P' hu' hc'
    obtain ⟨text', hudp'⟩ := construct_udpConfig hu' hc'
    have hend' : u'.getMulticastEndpoint = ⟨address, BitVec.ofInt 16 (toInt P')⟩ := by
      rw [getMulticastEndpoint, hudp']
    rw [hend, hend', ne_eq, ne_eq, Endpoint.mk.injEq, ofInt_toInt_eq_iff]
    simp only [true_and]
    tauto

theorem sampleRules_configured :
    Configured (.object sampleGlobalDefault) (some (.object sampleContractRules)) sampleAddress
      (.v4 0xEF000001) 8889 := ⟨rfl, rfl⟩

/-- The contract `IF2603` of the shipped configuration file, and two contracts with the ports `8888`
and `8888 + 65536`. -/
theorem configured_endpoint_iff_sample :
    ∃ u u' u'' : UnitProcessor,
      UnitProcessor.construct sampleAddress "IF2603" (.object sampleGlobalDefault)
        (some (.object sampleContractRules)) = .ok u ∧
      UnitProcessor.construct sampleAddress "rb2410" (.object sampleGlobalDefault) none = .ok u' ∧
      UnitProcessor.construct sampleAddress "cu2409" (.object sampleGlobalDefault)
        (some (.object [("port", .numberInteger 74424)])) = .ok u'' ∧
      ((u.getMulticastEndpoint.address = .v4 0xEF000001 ∧
          (u.getMulticastEndpoint.port.toNat : ℤ) = 8889) ∨ u.mConfig.mUdpConfig = {}) ∧
      ((8889 : ℤ) ≠ 8888 → u.getMulticastEndpoint ≠ u'.getMulticastEndpoint) ∧
      ¬ ((u''.getMulticastEndpoint.address = .v4 0xEF000001 ∧
          (u''.getMulticastEndpoint.port.toNat : ℤ) = 74424) ∨ u''.mConfig.mUdpConfig = {}) ∧
      ¬ ((74424 : ℤ) ≠ 8888 → u''.getMulticastEndpoint ≠ u'.getMulticastEndpoint) := by
  have hglobal :
      Configured (.object sampleGlobalDefault) none sampleAddress (.v4 0xEF000001) 8888 :=
    ⟨rfl, rfl⟩
  have hlarge : Configured (.object sampleGlobalDefault)
      (some (.object [("port", .numberInteger 74424)])) sampleAddress (.v4 0xEF000001) 74424 :=
    ⟨rfl, rfl⟩
  have hfits := @configured_endpoint_iff sampleAddress "IF2603" _ _ _ _ _ rfl sampleRules_configured
  have hover := @configured_endpoint_iff sampleAddress "cu2409" _ _ _ _ _ rfl hlarge
  refine ⟨_, _, _, rfl, rfl, rfl, hfits.1.2 (by decide),
    (hfits.2 "rb2410" _ _ _ _ rfl hglobal).2 (by decide), fun h => ?_, fun h => ?_⟩
  · exact absurd (hover.1.1 h) (by decide)
  · exact absurd ((hover.2 "rb2410" _ _ _ _ rfl hglobal).1 h) (by decide)

/-- A port that is too large by `2 ^ 16` is the port of another contract. -/
theorem port_aliased :
    ¬ ∀ (makeAddress : String → Option Address) (name : String) (globalJson : Json)
      (contractJson : Option Json) (u : UnitProcessor) (address : Address) (P : ℤ),
      UnitProcessor.construct makeAddress name globalJson contractJson = .ok u →
      Configured globalJson contractJson makeAddress address P →
        (u.getMulticastEndpoint.address = address ∧
          (u.getMulticastEndpoint.port.toNat : ℤ) = P) ∨ u.mConfig.mUdpConfig = {} := by
  intro h
  rcases h sampleAddress "IF2603" (.object sampleGlobalDefault)
    (some (.object [("port", .numberInteger 74424)])) _ (.v4 0xEF000001) 74424 rfl ⟨rfl, rfl⟩
    with ⟨-, hport⟩ | hdefault
  · exact absurd hport (by decide)
  · exact absurd hdefault (by decide)

end UltraMds
