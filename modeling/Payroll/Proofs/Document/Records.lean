/-
Values are read out of the documents that they were written to. Each
reader undoes one writer, and a record is read when each of its fields
is: which field stands where is settled by the names, so a shape is
taken apart field by field (`build_map`, `build_seq`, `build_field`)
and nothing is said of positions, which only matter where something is
at fault.

Amounts come back without the sign of a zero, and so do the maps that
hold them.
-/
import Payroll.Document.Payslip
import Payroll.Proofs.Entries
import Payroll.Proofs.Sequencing
import Payroll.Proofs.Text.Period

namespace Payroll

open Document

variable {α β : Type}

-- ================================================================= shapes

namespace Shape

variable {entries : Entries} {name : String} {d : Document}

theorem find?_of_lookup (h : entries.lookup name = some d) :
    ∃ position, find? name entries = some (position, d) := by
  induction entries with
  | nil => cases h
  | cons e rest ih =>
      rw [List.lookup_cons] at h
      by_cases hname : e.1 = name
      · rw [hname, beq_self_eq_true] at h
        cases h
        refine ⟨0, ?_⟩
        simp [find?, hname]
      · rw [beq_eq_false_iff_ne.2 (Ne.symm hname)] at h
        obtain ⟨position, hposition⟩ := ih h
        refine ⟨position + 1, ?_⟩
        unfold find? at hposition ⊢
        simp only [Option.map_eq_some_iff, Prod.mk.injEq] at hposition ⊢
        obtain ⟨e', he', rfl, hd⟩ := hposition
        refine ⟨e', ?_, ?_, hd⟩
        · simpa [hname] using he'
        · simp [hname]

/-- A field that was written is read as its reader says. -/
theorem build_field {read : Document → Read α} {missing : Read α} {a : α}
    (hd : entries.lookup name = some d) (ha : read d = .ok a) :
    (field name read missing).build entries = .ok a := by
  obtain ⟨position, hposition⟩ := find?_of_lookup hd
  simp only [field, hposition, ha]
  rfl

theorem build_required {read : Document → Read α} {a : α}
    (hd : entries.lookup name = some d) (ha : read d = .ok a) :
    (required name read).build entries = .ok a :=
  build_field hd ha

theorem build_withDefault {read : Document → Read α} {default a : α}
    (hd : entries.lookup name = some d) (ha : read d = .ok a) :
    (withDefault name read default).build entries = .ok a :=
  build_field hd ha

theorem build_seq {f : Shape (α → β)} {x : Shape α} {g : α → β} {a : α}
    (hf : f.build entries = .ok g) (hx : x.build entries = .ok a) :
    (f <*> x).build entries = .ok (g a) := by
  show (apply f x).build entries = _
  simp only [apply, hf, hx]

theorem build_map (g : α → β) {x : Shape α} {a : α}
    (hx : x.build entries = .ok a) :
    (g <$> x).build entries = .ok (g a) :=
  build_seq (f := constant g) rfl hx

/-- Where every entry is known and none comes twice, nothing is broken
off. -/
theorem breach?_eq_none {names seen : List String} {position : Nat}
    (hknown : ∀ e ∈ entries, e.1 ∈ names) (hnew : ∀ e ∈ entries, e.1 ∉ seen)
    (hdistinct : (entries.map (·.1)).Nodup) :
    breach? names seen position entries = none := by
  induction entries generalizing seen position with
  | nil => rfl
  | cons e rest ih =>
      obtain ⟨hhead, htail⟩ := List.forall_mem_cons.1 hknown
      obtain ⟨hnew, hnewer⟩ := List.forall_mem_cons.1 hnew
      rw [List.map_cons, List.nodup_cons] at hdistinct
      rw [breach?, if_pos hhead, if_neg hnew]
      refine ih htail (fun e' he' => ?_) hdistinct.2
      rw [List.mem_cons, not_or]
      refine ⟨fun heq => hdistinct.1 ?_, hnewer e' he'⟩
      rw [← heq]
      exact List.mem_map_of_mem he'

/-- A record that was written with all of its fields is read by them. -/
theorem read_record {s : Shape α} {a : α}
    (hnames : entries.map (·.1) = s.names) (hdistinct : s.names.Nodup)
    (hbuild : s.build entries = .ok a) : s.read (.table entries) = .ok a := by
  refine read_table hbuild (breach?_eq_none ?_ (fun _ _ => List.not_mem_nil)
    (hnames ▸ hdistinct))
  intro e he
  rw [← hnames]
  exact List.mem_map_of_mem he

end Shape

-- ================================================================= leaves

namespace Document

theorem asDecimal_ofDecimal (a : Decimal) :
    (ofDecimal a).asDecimal = .ok a.unsigned := by
  simp only [ofDecimal, asDecimal, Decimal.ofText?_toText, found]

theorem asNatBelow_ofNat {n bound : Nat} (h : n < bound) :
    (ofNat n).asNatBelow bound = .ok n := by
  have hrange : (0 : ℤ) ≤ n ∧ (n : ℤ) < bound := by omega
  simp only [ofNat, asNatBelow, asInt, ok_bind, if_pos hrange,
    Int.toNat_natCast]

theorem asUInt32_ofNat (n : UInt32) : (ofNat n.toNat).asUInt32 = .ok n := by
  rw [asUInt32, asNatBelow_ofNat n.toNat_lt]
  exact congrArg _ (UInt32.ofNat_toNat)

theorem asDate_toText (d : Date) : (text d.toText).asDate = .ok d := by
  simp only [asDate, asText, ok_bind, Date.ofText?_toText, found]

theorem asPeriod_toText (p : Period) (h₀ : 0 ≤ p.year)
    (h₁ : p.year ≤ 9999) : (text p.toText).asPeriod = .ok p := by
  simp only [asPeriod, asText, ok_bind, p.parse_toText h₀ h₁]

theorem asSeverity_name (s : Severity) :
    (text s.name).asOneOf Severity.ofName? = .ok s := by
  cases s <;> rfl

theorem asDelayTier_name (t : DelayTier) :
    (text t.name).asOneOf DelayTier.ofName? = .ok t := by
  cases t <;> rfl

-- ================================================================== lists

/-- A list is read entry by entry. -/
theorem mapM_written {γ : Type} {write : α → γ} {read : γ → Read β}
    {f : α → β} {l : List α} (h : ∀ a ∈ l, read (write a) = .ok (f a)) :
    (l.map write).mapM read = .ok (l.map f) := by
  rw [mapM_eq_ok, List.forall₂_map_left_iff, List.forall₂_map_right_iff]
  exact List.forall₂_same.2 h

theorem asList_written {write : α → Document} {read : Document → Read β}
    {f : α → β} {l : List α} (h : ∀ a ∈ l, read (write a) = .ok (f a)) :
    (list (l.map write)).asList read = .ok (l.map f) :=
  mapM_written h

end Document

-- =================================================================== maps

/-- The amounts without the signs of zeros. -/
def Named.unsigned (m : Named Decimal) : Named Decimal :=
  { entries := m.entries.map fun e => (e.1, e.2.unsigned)
    rising := by
      rw [List.pairwise_map]
      exact m.rising }

def ByCategory.unsigned (m : ByCategory Decimal) : ByCategory Decimal :=
  { regular := m.regular.map Decimal.unsigned
    night := m.night.map Decimal.unsigned
    weekend := m.weekend.map Decimal.unsigned
    holiday := m.holiday.map Decimal.unsigned }

theorem ByCategory.entries_unsigned (m : ByCategory Decimal) :
    m.unsigned.entries = m.entries.map fun e => (e.1, e.2.unsigned) := by
  obtain ⟨regular, night, weekend, holiday⟩ := m
  cases regular <;> cases night <;> cases weekend <;> cases holiday <;> rfl

namespace Document

theorem asNamed_ofNamed (m : Named Decimal) :
    (ofNamed m).asNamed asDecimal = .ok m.unsigned := by
  have hentries : (m.entries.map fun e => (e.1, ofDecimal e.2)).mapM
      (fun e => do return (e.1, ← asDecimal e.2))
        = .ok m.unsigned.entries :=
    mapM_written fun e _ => by
      rw [asDecimal_ofDecimal]
      rfl
  unfold asNamed ofNamed
  simp only [asEntries, ok_bind, hentries]
  exact congrArg _ m.unsigned.ofList_entries

theorem asByCategory_ofByCategory (m : ByCategory Decimal) :
    (ofByCategory m).asByCategory asDecimal = .ok m.unsigned := by
  have hentries : (m.entries.map fun e => (e.1.name, ofDecimal e.2)).mapM
      (fun e => do return (← found (Category.ofName? e.1), ← asDecimal e.2))
        = .ok m.unsigned.entries := by
    rw [m.entries_unsigned]
    refine mapM_written fun e _ => ?_
    rw [asDecimal_ofDecimal, Category.ofName?_name]
    rfl
  unfold asByCategory ofByCategory
  simp only [asEntries, ok_bind, hentries]
  exact congrArg _ m.unsigned.ofList_entries_self

end Document

end Payroll
