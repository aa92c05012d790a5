import Mathlib.Data.List.TakeWhile
import TunProxy.Native.TlsBounds

/-!
# What `parse_tls_header` reads and writes lies inside
-/

namespace TunProxy.Native

variable {data hostname : Bytes}

/-! ## The rounds are enough -/

/-- The string that lies at what was located. -/
def readLocated (data : Bytes) : Option (Nat × Nat) → Option Bytes
  | none => some []
  | some (pos, len) => readString data pos len

theorem parseServerNameExtension_eq {base dataLen rounds pos : Nat} (h : dataLen ≤ rounds + pos) :
    parseServerNameExtension data base dataLen rounds pos
      = (locateName data base dataLen pos).bind (readLocated data) := by
  induction rounds generalizing pos with
  | zero =>
      rw [locateName, if_neg (by omega)]
      rfl
  | succ rounds ih =>
      rw [parseServerNameExtension, locateName]
      split
      · cases readU16 data (base + pos + 1) with
        | none => rfl
        | some len =>
            simp only [Option.bind_eq_bind, Option.bind_some]
            split
            · rfl
            · cases data[base + pos]? with
              | none => rfl
              | some nameType =>
                  simp only [Option.bind_some]
                  split
                  · rfl
                  · exact ih (by omega)
      · rfl

theorem parseExtensions_eq {base dataLen rounds pos : Nat} (h : dataLen ≤ rounds + pos) :
    parseExtensions data base dataLen rounds pos
      = (locateInExtensions data base dataLen pos).bind (readLocated data) := by
  induction rounds generalizing pos with
  | zero =>
      rw [locateInExtensions, if_neg (by omega)]
      rfl
  | succ rounds ih =>
      rw [parseExtensions, locateInExtensions]
      split
      · cases readU16 data (base + pos + 2) with
        | none => rfl
        | some len =>
            simp only [Option.bind_eq_bind, Option.bind_some]
            cases readU16 data (base + pos) with
            | none => rfl
            | some type =>
                simp only [Option.bind_some]
                split
                · split
                  · rfl
                  · exact parseServerNameExtension_eq (Nat.le_add_right _ _)
                · exact ih (by omega)
      · rfl

theorem bind_ite {α β : Type} {c : Prop} [Decidable c] {a b : Option α} {f : α → Option β} :
    (if c then a else b).bind f = if c then a.bind f else b.bind f := by
  split <;> rfl

theorem parseTlsHeader_eq (data : Bytes) : parseTlsHeader data = (locateServerName data).bind (readLocated data) := by
  simp only [parseTlsHeader, locateServerName, Option.bind_eq_bind, Option.pure_def, bind_ite, Option.bind_some,
    Option.bind_assoc, readLocated, parseExtensions_eq (Nat.le_add_right _ _)]

/-! ## Reads and writes -/

/-- No read leaves the payload, and what is to be copied lies in it and fits into `hostname`. -/
def Inside (data : Bytes) (x : Option (Option (Nat × Nat))) : Prop :=
  ∃ r, x = some r ∧ ∀ pos len, r = some (pos, len) → pos + len ≤ data.length ∧ len ≤ FQDN_MAX

theorem Inside.absent : Inside data (some none) := ⟨none, rfl, fun _ _ h => nomatch h⟩

theorem Inside.ite {c : Prop} [Decidable c] {x y : Option (Option (Nat × Nat))} (hx : c → Inside data x)
    (hy : ¬c → Inside data y) : Inside data (if c then x else y) := by
  split
  · exact hx ‹_›
  · exact hy ‹_›

theorem Inside.byte {i : Nat} {f : UInt8 → Option (Option (Nat × Nat))} (hi : i < data.length)
    (hf : ∀ x, Inside data (f x)) : Inside data (data[i]?.bind f) := by
  rw [List.getElem?_eq_getElem hi]
  exact hf _

theorem Inside.u16 {i : Nat} {f : Nat → Option (Option (Nat × Nat))} (hi : i + 1 < data.length)
    (hf : ∀ n, Inside data (f n)) : Inside data ((readU16 data i).bind f) := by
  rw [readU16, List.getElem?_eq_getElem (show i < data.length by omega), List.getElem?_eq_getElem hi]
  exact hf _

theorem locateName_fits {base dataLen pos : Nat} (h : base + dataLen ≤ data.length) :
    Inside data (locateName data base dataLen pos) := by
  induction pos using locateName.induct dataLen with
  | case1 pos hlt ih =>
      rw [locateName, if_pos hlt]
      refine .u16 (by omega) fun len => .ite (fun _ => .absent) fun hle => .byte (by omega) fun nameType => ?_
      refine .ite (fun _ => ⟨_, rfl, ?_⟩) fun _ => ih len hle
      rintro _ _ ⟨⟩
      omega
  | case2 pos hge =>
      rw [locateName, if_neg hge]
      exact .absent

theorem locateInExtensions_fits {base dataLen pos : Nat} (h : base + dataLen ≤ data.length) :
    Inside data (locateInExtensions data base dataLen pos) := by
  induction pos using locateInExtensions.induct dataLen with
  | case1 pos hle ih =>
      rw [locateInExtensions, if_pos hle]
      refine .u16 (by omega) fun len => .u16 (by omega) fun type => .ite (fun _ => ?_) fun _ => ih len
      exact .ite (fun _ => .absent) fun _ => locateName_fits (by omega)
  | case2 pos hgt =>
      rw [locateInExtensions, if_neg hgt]
      exact .absent

theorem locateServerName_inside (data : Bytes) : Inside data (locateServerName data) := by
  unfold locateServerName
  simp only [TLS_HEADER_LEN, Option.bind_eq_bind, Option.pure_def]
  refine .ite (fun _ => .absent) fun hlen => .byte (by omega) fun contentType => .byte (by omega) fun major =>
    .byte (by omega) fun minor => .ite (fun _ => .absent) fun _ => .ite (fun _ => .absent) fun _ =>
    .ite (fun _ => .absent) fun _ => .u16 (by omega) fun len => ?_
  -- from here on every read is below the smaller of the two lengths
  refine .ite (fun _ => .absent) fun _ => .ite (fun _ => .absent) fun _ => .byte (by omega) fun type =>
    .ite (fun _ => .absent) fun _ => .ite (fun _ => .absent) fun _ => .byte (by omega) fun sessionId =>
    .ite (fun _ => .absent) fun _ => .u16 (by omega) fun suites => .ite (fun _ => .absent) fun _ =>
    .byte (by omega) fun methods => .ite (fun _ => .absent) fun _ => .ite (fun _ => .absent) fun _ =>
    .u16 (by omega) fun len' => .ite (fun _ => .absent) fun _ => locateInExtensions_fits (by omega)

/-- What is written lies in the first 256 bytes. -/
theorem parseTlsHeaderInto_fits (data : Bytes) (h : FQDN_MAX + 1 ≤ hostname.length) :
    ∃ hostname', parseTlsHeaderInto data hostname = some hostname' ∧ hostname'.length = hostname.length ∧
      hostname'.drop (FQDN_MAX + 1) = hostname.drop (FQDN_MAX + 1) := by
  obtain ⟨r, hr, hfits⟩ := locateServerName_inside data
  rw [parseTlsHeaderInto, hr]
  cases r with
  | none => exact ⟨hostname, rfl, rfl, rfl⟩
  | some p =>
      obtain ⟨pos, len⟩ := p
      obtain ⟨hle, hmax⟩ := hfits pos len rfl
      have hname : (List.takeWhile (fun x => decide (x ≠ 0)) ((data.drop pos).take len)).length ≤ len :=
        Nat.le_trans (List.takeWhile_prefix _).length_le (List.length_take_le _ _)
      simp only [Option.bind_eq_bind, Option.bind_some, copyName]
      rw [readString, if_pos hle, Option.bind_some, if_pos (by omega)]
      generalize List.takeWhile (fun x => decide (x ≠ 0)) ((data.drop pos).take len) = name at hname
      have hwritten : (name ++ List.replicate (len - name.length) 0 ++ [0]).length = len + 1 := by
        simp only [List.length_append, List.length_replicate, List.length_singleton]
        omega
      refine ⟨_, rfl, ?_, ?_⟩
      · rw [List.length_append, hwritten, List.length_drop]
        omega
      · rw [List.drop_append, hwritten, List.drop_of_length_le (by omega), List.nil_append, List.drop_drop]
        congr 1
        omega

/-- The string that is left in an array that was empty is the one that `parse_tls_header` finds. -/
theorem parseTlsHeaderInto_name {name : Bytes} (h : FQDN_MAX + 1 ≤ hostname.length)
    (hempty : hostname.takeWhile (· ≠ 0) = []) (hn : parseTlsHeader data = some name) :
    ∃ hostname', parseTlsHeaderInto data hostname = some hostname' ∧ hostname'.takeWhile (· ≠ 0) = name := by
  obtain ⟨r, hr, hfits⟩ := locateServerName_inside data
  rw [parseTlsHeader_eq, hr, Option.bind_some] at hn
  rw [parseTlsHeaderInto, hr]
  cases r with
  | none =>
      cases hn
      exact ⟨hostname, rfl, hempty⟩
  | some p =>
      obtain ⟨pos, len⟩ := p
      obtain ⟨hle, hmax⟩ := hfits pos len rfl
      rw [readLocated] at hn
      simp only [Option.bind_eq_bind, Option.bind_some, copyName]
      rw [hn, Option.bind_some, if_pos (by omega)]
      refine ⟨_, rfl, ?_⟩
      rw [readString, if_pos hle, Option.some.injEq] at hn
      have hchars : ∀ x ∈ name, decide (x ≠ 0) = true := fun x hx => by
        rw [← hn] at hx
        exact List.mem_takeWhile_imp (p := fun x => decide (x ≠ 0)) hx
      rw [List.append_assoc, List.append_assoc, List.takeWhile_append_of_pos hchars]
      cases len - name.length with
      | zero => simp
      | succ n => simp [List.replicate_succ]

end TunProxy.Native
