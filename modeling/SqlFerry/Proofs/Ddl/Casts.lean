import SqlFerry.Proofs.Ddl.Types
import SqlFerry.Proofs.Sql.Casts

/-!
# Casts to the types of columns

A cast to the type of a column goes when its text is quoted anew for a dialect without casts. A type
is written with its numbers behind the first word if it is a time with its zone, else behind all
words; a cast has them behind all words and without signs.
-/

namespace SqlFerry.Ddl

open Text Pattern Sql

variable {c : Column} {t : Dialect} {w : String}

structure HasWords (w first later : Chars) : Prop where
  eq : w = first ++ later
  first : isTypeWord first = true
  later : IsLater later

namespace HasWords

variable {x first later : Chars}

theorem not_isBlank (h : HasWords x first later) : ∀ c ∈ first, isBlank c = false := by
  intro c hc
  have hall := h.first
  rw [isTypeWord, Bool.and_eq_true] at hall
  rcases Bool.or_eq_true _ _ ▸ List.all_eq_true.1 hall.2 c hc with hword | hdot
  · exact not_isBlank_of_isWord hword
  · exact beq_iff_eq.1 hdot ▸ by decide

theorem parts (h : HasWords x first later) :
    x.takeWhile (· != ' ') = first ∧ x.dropWhile (· != ' ') = later := by
  have hspace : ∀ c ∈ first, (c != ' ') = true := by
    intro c hc
    rw [bne_iff_ne]
    rintro rfl
    exact absurd (h.not_isBlank _ hc) (by decide)
  have hlater : later.takeWhile (· != ' ') = [] ∧ later.dropWhile (· != ' ') = later := by
    cases h.later <;> exact ⟨rfl, rfl⟩
  rw [h.eq, List.takeWhile_append_of_pos hspace, List.dropWhile_append_of_pos hspace, hlater.1,
    hlater.2, List.append_nil]
  exact ⟨rfl, rfl⟩

end HasWords

variable {first later : Chars}

end SqlFerry.Ddl
