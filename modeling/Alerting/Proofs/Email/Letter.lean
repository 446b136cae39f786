import Alerting.Email.Letter
import Alerting.Proofs.Json.Reader
/-!
# Which letters can be built

A letter needs recipients, all of them with readable addresses, and pictures that all have a media
type.  It holds exactly the pictures that it is given.
-/

namespace Alerting.Email.Letter

open Delivery Json

/-! ## Parts -/

theorem isOk_mapM {ε α β : Type} (f : α → Except ε β) (l : List α) :
    (l.mapM f).isOk = l.all fun a => (f a).isOk := by
  induction l with
  | nil => rfl
  | cons a rest ih =>
      rw [List.mapM_cons, List.all_cons, ← ih]
      cases f a with
      | error e => rfl
      | ok b => cases rest.mapM f <;> rfl

theorem isOk_recipient (text : String) : (recipient text).isOk = (Mailbox.ofText text).isOk := by
  unfold recipient
  cases Mailbox.ofText text <;> rfl

theorem isOk_picture (image : InlineImage) :
    (picture image).isOk = (MediaType.ofText image.contentType).isOk := by
  unfold picture
  cases MediaType.ofText image.contentType <;> rfl

theorem picture_eq_ok {image : InlineImage} {p : Picture} (h : picture image = .ok p) :
    (p.contentId, p.bytes) = (image.contentId, image.bytes) := by
  obtain ⟨mediaType, -, h⟩ := exists_of_bind_eq_ok h
  cases h
  rfl

/-! ## The whole -/

variable {sender : Mailbox} {recipients : List String} {subject html : String}
  {images : List InlineImage}

theorem isOk_build_iff :
    (build sender recipients subject html images).isOk = true ↔
      recipients ≠ [] ∧ (∀ text ∈ recipients, (Mailbox.ofText text).isOk = true) ∧
        ∀ image ∈ images, (MediaType.ofText image.contentType).isOk = true := by
  have hrecipients : (recipients.mapM recipient).isOk = true ↔
      ∀ text ∈ recipients, (Mailbox.ofText text).isOk = true := by
    simp only [isOk_mapM, isOk_recipient, List.all_eq_true]
  have himages : (images.mapM picture).isOk = true ↔
      ∀ image ∈ images, (MediaType.ofText image.contentType).isOk = true := by
    simp only [isOk_mapM, isOk_picture, List.all_eq_true]
  rw [← hrecipients, ← himages, ne_eq, ← List.isEmpty_iff, Bool.not_eq_true]
  unfold build
  cases recipients.isEmpty with
  | true => exact ⟨nofun, nofun⟩
  | false =>
      cases recipients.mapM recipient with
      | error e => exact ⟨nofun, nofun⟩
      | ok mailboxes =>
          cases images.mapM picture with
          | error e => exact ⟨nofun, nofun⟩
          | ok pictures => exact ⟨fun _ => ⟨rfl, rfl, rfl⟩, fun _ => rfl⟩

theorem pictures_of_build {letter : Letter}
    (h : build sender recipients subject html images = .ok letter) :
    letter.html = html ∧ images.mapM picture = .ok letter.pictures := by
  unfold build at h
  split at h
  · cases h
  · obtain ⟨mailboxes, -, h⟩ := exists_of_bind_eq_ok h
    obtain ⟨pictures, hpictures, h⟩ := exists_of_bind_eq_ok h
    cases h
    exact ⟨rfl, hpictures⟩

theorem build_concat (sender : Mailbox) (recipients : List String) (subject html html' : String)
    (images : List InlineImage) (image : InlineImage) :
    build sender recipients subject html (images ++ [image]) = do
      let letter ← build sender recipients subject html' images
      let added ← picture image
      return { letter with html, pictures := letter.pictures ++ [added] } := by
  unfold build
  rw [List.mapM_append]
  cases recipients.isEmpty with
  | true => rfl
  | false =>
      cases recipients.mapM recipient with
      | error e => rfl
      | ok mailboxes =>
          cases images.mapM picture with
          | error e => rfl
          | ok pictures =>
              cases himage : picture image with
              | error e => simp [bind, pure, Except.bind, Except.pure, himage]
              | ok added => simp [bind, pure, Except.bind, Except.pure, himage]

end Alerting.Email.Letter
