import ContentTypes.Text

/-!
# Support files

The declarations that are the same for every project: the envelope of an answer, the account entity
and uploaded files.
-/

namespace ContentTypes.Declaration

structure SupportFile where
  fileName : String
  lines : List String
  deriving DecidableEq, Repr

namespace SupportFile

def contents (file : SupportFile) : String :=
  Text.joinLines file.lines

def payload : SupportFile where
  fileName := "Payload.ts"
  lines := [
    "export interface Payload<T> \x7b",
    "  data: T;",
    "  meta: \x7b",
    "    pagination?: \x7b",
    "      page: number;",
    "      pageSize: number;",
    "      pageCount: number;",
    "      total: number;",
    "    \x7d",
    "  \x7d;",
    "\x7d"]

def user : SupportFile where
  fileName := "User.ts"
  lines := [
    "export const UserAPI = \"plugin::users-permissions.user\";",
    "",
    "export interface User \x7b",
    "  id: number;",
    "  attributes: \x7b",
    "    username: string;",
    "    email: string;",
    "    provider: string;",
    "    confirmed: boolean;",
    "    blocked: boolean;",
    "    createdAt: Date;",
    "    updatedAt: Date;",
    "  \x7d",
    "\x7d",
    "",
    "export type FlatUser = User['attributes'];",
    "",
    "export type CM_User = FlatUser;"]

def mediaFormat : SupportFile where
  fileName := "MediaFormat.ts"
  lines := [
    "export interface MediaFormat \x7b",
    "  name: string;",
    "  hash: string;",
    "  ext: string;",
    "  mime: string;",
    "  width: number;",
    "  height: number;",
    "  size: number;",
    "  path: string;",
    "  url: string;",
    "\x7d"]

def media : SupportFile where
  fileName := "Media.ts"
  lines := [
    "import \x7b MediaFormat \x7d from './MediaFormat';",
    "",
    "export interface Media \x7b",
    "  id: number;",
    "  attributes: \x7b",
    "    name: string;",
    "    alternativeText: string;",
    "    caption: string;",
    "    width: number;",
    "    height: number;",
    "    formats: \x7b thumbnail: MediaFormat; medium: MediaFormat; small: MediaFormat; \x7d;",
    "    hash: string;",
    "    ext: string;",
    "    mime: string;",
    "    size: number;",
    "    url: string;",
    "    previewUrl: string;",
    "    provider: string;",
    "    createdAt: Date;",
    "    updatedAt: Date;",
    "  \x7d",
    "\x7d",
    "",
    "export type FlatMedia = Media['attributes'];",
    "",
    "export type CM_Media = FlatMedia;"]

def all : List SupportFile :=
  [payload, user, mediaFormat, media]

end SupportFile

end ContentTypes.Declaration
