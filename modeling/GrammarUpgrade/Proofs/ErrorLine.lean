import GrammarUpgrade.ErrorChain
import Mathlib.Data.List.Infix

/-!
# Errors in one line

The short rendering leaves out a text that the text before it contains, whether that one is
shown or not.  The main statement, `render_complete`, says that nothing is lost in this way,
and that an error that quotes its cause needs no other text than its own: every error of the
library is like that.
-/

namespace GrammarUpgrade

namespace ErrorChain

variable {previous rendered text : String} {contexts texts causes : List String}

/-- The chain with more texts outside, the last of them outermost. -/
def withinAll (chain : ErrorChain) (contexts : List String) : ErrorChain :=
  contexts.foldl within chain

/-- Every text of the chain contains the one after it. -/
def QuotesCauses (chain : ErrorChain) : Prop :=
  chain.links.IsChain fun text cause => cause.toList <:+: text.toList

@[simp]
theorem links_within (chain : ErrorChain) (context : String) :
    (chain.within context).links = context :: chain.links :=
  rfl

theorem links_withinAll (chain : ErrorChain) (contexts : List String) :
    (chain.withinAll contexts).links = contexts.reverse ++ chain.links := by
  induction contexts generalizing chain with
  | nil => rfl
  | cons context others ih =>
      rw [withinAll, List.foldl_cons, ← withinAll, ih, links_within, List.reverse_cons,
        List.append_assoc]
      rfl

/-! ## Nothing is lost -/

/-- What has been rendered stays. -/
theorem infix_extendLine : rendered.toList <:+: (extendLine previous rendered texts).toList := by
  induction texts generalizing previous rendered with
  | nil => exact List.infix_refl _
  | cons text rest ih =>
      rw [extendLine]
      split
      · exact ih
      split
      · rename_i empty
        rw [empty]
        exact List.nil_infix
      · refine List.IsInfix.trans ?_ ih
        rw [String.toList_append, String.toList_append, List.append_assoc]
        exact (List.prefix_append _ _).isInfix

/-- The text before the next one is in the line even if it was left out, so a text that it
contains is in the line as well. -/
theorem infix_extendLine_of_mem (shown : previous.toList <:+: rendered.toList)
    (member : text ∈ texts) : text.toList <:+: (extendLine previous rendered texts).toList := by
  induction texts generalizing previous rendered with
  | nil => contradiction
  | cons first rest ih =>
      -- Whatever becomes of the first text, it is in the line from which the others go on.
      have step {line : String} (here : first.toList <:+: line.toList) :
          text.toList <:+: (extendLine first line rest).toList := by
        rcases List.mem_cons.mp member with rfl | later
        · exact here.trans infix_extendLine
        · exact ih here later
      rw [extendLine]
      split
      · rename_i contained
        exact step ((Text.occursIn_iff.mp contained).trans shown)
      split
      · exact step (List.infix_refl _)
      · refine step ?_
        rw [String.toList_append]
        exact (List.suffix_append _ _).isInfix

/-! ## Causes that add nothing -/

/-- Texts of which each is contained in the one before are left out. -/
theorem extendLine_of_isChain
    (quoted : (text :: causes).IsChain fun text cause => cause.toList <:+: text.toList) :
    extendLine text rendered causes = rendered := by
  induction causes generalizing text with
  | nil => rfl
  | cons cause rest ih =>
      obtain ⟨contained, others⟩ := List.isChain_cons_cons.mp quoted
      rw [extendLine, if_pos (Text.occursIn_iff.mpr contained)]
      exact ih others

theorem extendLine_append_of_isChain
    (quoted : (text :: causes).IsChain fun text cause => cause.toList <:+: text.toList) :
    extendLine previous rendered (texts ++ text :: causes) =
      extendLine previous rendered (texts ++ [text]) := by
  induction texts generalizing previous rendered with
  | nil =>
      simp only [List.nil_append, extendLine]
      split
      · exact extendLine_of_isChain quoted
      split <;> exact extendLine_of_isChain quoted
  | cons first rest ih => simp only [List.cons_append, extendLine, ih]

/-- An error that quotes its causes is shown like an error without any. -/
theorem QuotesCauses.oneLine_withinAll {chain : ErrorChain} (quotes : chain.QuotesCauses)
    (contexts : List String) :
    (chain.withinAll contexts).oneLine =
      ((single chain.outermost).withinAll contexts).oneLine := by
  rw [oneLine, oneLine, links_withinAll, links_withinAll]
  exact extendLine_append_of_isChain quotes

theorem quotesCauses_single (text : String) : (single text).QuotesCauses :=
  .singleton _

/-- An error whose text ends with that of its cause. -/
theorem QuotesCauses.within {chain : ErrorChain} (quotes : chain.QuotesCauses)
    (words : String) : (chain.within (words ++ chain.outermost)).QuotesCauses := by
  have quoted : chain.outermost.toList <:+: (words ++ chain.outermost).toList := by
    rw [String.toList_append]
    exact (List.suffix_append _ _).isInfix
  exact List.isChain_cons_cons.mpr ⟨quoted, quotes⟩

end ErrorChain

/-! ## The errors of the library -/

open ErrorChain

/-- An error of the library. -/
inductive LibraryError where
  | dataset (error : DatasetError)
  | config (error : ConfigError)
  | sink (error : SinkError)
  | generation (error : GenerationError)

namespace LibraryError

/-- The text of an error alone. -/
def message : LibraryError → String
  | .dataset error => error.message
  | .config error => error.message
  | .sink error => error.message
  | .generation error => error.message

/-- The texts of an error and its causes. -/
def chain : LibraryError → ErrorChain
  | .dataset error => error.chain
  | .config error => error.chain
  | .sink error => error.chain
  | .generation error => error.chain

end LibraryError

theorem DatasetError.quotesCauses (error : DatasetError) : error.chain.QuotesCauses := by
  cases error with
  | file path cause => exact (quotesCauses_single cause.message).within _
  | text path cause => exact (quotesCauses_single cause.message).within _

theorem ConfigError.quotesCauses (error : ConfigError) : error.chain.QuotesCauses := by
  cases error with
  | file path cause => exact (quotesCauses_single cause.message).within _
  | text cause => exact (quotesCauses_single cause.report).within _
  | rules cause => exact (quotesCauses_single cause.message).within _
  | noDataset => exact quotesCauses_single _

theorem SinkError.quotesCauses (error : SinkError) : error.chain.QuotesCauses := by
  cases error with
  | createDirectory path cause => exact (quotesCauses_single cause.message).within _
  | write path cause => exact (quotesCauses_single cause.message).within _
  | serialize cause => exact (quotesCauses_single cause.message).within _

theorem GenerationError.quotesCauses (error : GenerationError) :
    error.chain.QuotesCauses := by
  cases error with
  | dataset cause => exact cause.quotesCauses.within _
  | config cause => exact cause.quotesCauses.within _
  | sink cause => exact cause.quotesCauses.within _

theorem LibraryError.quotesCauses (error : LibraryError) : error.chain.QuotesCauses := by
  cases error with
  | dataset error => exact error.quotesCauses
  | config error => exact error.quotesCauses
  | sink error => exact error.quotesCauses
  | generation error => exact error.quotesCauses

theorem LibraryError.outermost_chain (error : LibraryError) :
    error.chain.outermost = error.message := by
  cases error with
  | generation error => cases error <;> rfl
  | _ => rfl

/-- The short rendering of a chain contains all its texts.  Under any contexts, an error that
quotes its causes is rendered as if it had none, and so is every error of the library, each
with its own text. -/
theorem render_complete :
    (∀ (chain : ErrorChain), ∀ link ∈ chain.links,
      link.toList <:+: (chain.render false).toList) ∧
    (∀ (chain : ErrorChain) (contexts : List String), chain.QuotesCauses →
      (chain.withinAll contexts).render false =
        ((single chain.outermost).withinAll contexts).render false) ∧
    ∀ (error : LibraryError) (contexts : List String),
      (error.chain.withinAll contexts).render false =
        ((single error.message).withinAll contexts).render false := by
  refine ⟨?_, ?_, ?_⟩
  · intro chain link member
    exact infix_extendLine_of_mem (List.infix_refl _) member
  · intro chain contexts quotes
    exact quotes.oneLine_withinAll contexts
  · intro error contexts
    rw [← error.outermost_chain]
    exact error.quotesCauses.oneLine_withinAll contexts

/-- An empty text is left out and so is a part of the text before; a text that goes on from
the one before is shown whole. -/
example :
    (ErrorChain.mk "" ["disk", "disk full", "full"]).render false = "disk: disk full" := by
  decide +kernel

end GrammarUpgrade
