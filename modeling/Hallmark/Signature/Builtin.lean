import Hallmark.Signature.Database

/-!
# `Hallmark/Signature/Builtin.lean` — the bundled database

Signatures of common images, documents, archives, executables, scripts, databases, audio and video.
-/

set_option autoImplicit false

namespace Hallmark.Signature

def builtinLines : List String :=
  ["# Signature database for FileTypeSigModule.",
   "#",
   "# Format: <offset> <type> <test> <message>",
   "# Continuation lines start with one '>' per level. A message starting",
   "# with \\b is appended without a separating space.",
   "",
   "# Images",
   "0\tstring\t\t\\x89PNG\\r\\n\\x1a\\n\tPNG image data",
   "!:mime\timage/png",
   ">16\tbelong\t\tx\t\t\\b, %d x",
   ">20\tbelong\t\tx\t\t%d",
   ">24\tbyte\t\t8\t\t\\b, 8-bit",
   ">24\tbyte\t\t16\t\t\\b, 16-bit",
   ">25\tbyte\t\t0\t\t\\b/color grayscale",
   ">25\tbyte\t\t2\t\t\\b/color RGB",
   ">25\tbyte\t\t3\t\t\\b/color colormap",
   ">25\tbyte\t\t6\t\t\\b/color RGBA",
   "",
   "0\tbeshort\t\t0xffd8\t\tJPEG image data",
   "!:mime\timage/jpeg",
   ">6\tstring\t\tJFIF\t\t\\b, JFIF standard",
   ">6\tstring\t\tExif\t\t\\b, Exif standard",
   "",
   "0\tstring\t\tGIF8\t\tGIF image data",
   "!:mime\timage/gif",
   ">4\tstring\t\t7a\t\t\\b, version 87a",
   ">4\tstring\t\t9a\t\t\\b, version 89a",
   ">6\tleshort\t\tx\t\t\\b, %d x",
   ">8\tleshort\t\tx\t\t%d",
   "",
   "0\tstring\t\tBM\t\tPC bitmap",
   "!:mime\timage/bmp",
   "!:strength\t-10",
   ">18\tlelong\t\tx\t\t\\b, %d x",
   ">22\tlelong\t\tx\t\t%d",
   "",
   "# Documents",
   "0\tstring\t\t%PDF-\t\tPDF document",
   "!:mime\tapplication/pdf",
   ">5\tstring\t\t>\\0\t\t\\b, version %s",
   "",
   "0\tstring\t\t%!\t\tPostScript document text",
   "!:mime\tapplication/postscript",
   "",
   "0\tbequad\t\t0xd0cf11e0a1b11ae1\tComposite Document File V2 Document",
   "!:mime\tapplication/CDFV2",
   "",
   "0\tstring/w\t\\<?xml\\ version\tXML document text",
   "!:mime\ttext/xml",
   "",
   "0\tsearch/64/c\t\\<!doctype\\ html\tHTML document text",
   "!:mime\ttext/html",
   "0\tsearch/64/c\t\\<html\t\tHTML document text",
   "!:mime\ttext/html",
   "",
   "# Archives and compression",
   "0\tstring\t\tPK\\x03\\x04\tZip archive data",
   "!:mime\tapplication/zip",
   ">4\tbyte\t\t0x0a\t\t\\b, at least v1.0 to extract",
   ">4\tbyte\t\t0x14\t\t\\b, at least v2.0 to extract",
   ">4\tbyte\t\t0x2d\t\t\\b, at least v4.5 to extract",
   "",
   "0\tstring\t\t\\x1f\\x8b\tgzip compressed data",
   "!:mime\tapplication/gzip",
   ">2\tbyte\t\t8\t\t\\b, deflated",
   "",
   "0\tstring\t\tBZh\t\tbzip2 compressed data",
   "!:mime\tapplication/x-bzip2",
   ">3\tbyte\t\t>47\t\t\\b, block size = %c00k",
   "",
   "0\tstring\t\t7z\\xbc\\xaf\\x27\\x1c\t7-zip archive data",
   "!:mime\tapplication/x-7z-compressed",
   ">6\tbyte\t\tx\t\t\\b, version 0.%d",
   "",
   "0\tstring\t\tRar!\\x1a\\x07\tRAR archive data",
   "!:mime\tapplication/x-rar",
   "",
   "0\tstring\t\t\\xfd7zXZ\\0\tXZ compressed data",
   "!:mime\tapplication/x-xz",
   "",
   "257\tstring\t\tustar\t\tPOSIX tar archive",
   "!:mime\tapplication/x-tar",
   "",
   "# Executables",
   "0\tstring\t\t\\x7fELF\t\tELF",
   "!:mime\tapplication/x-executable",
   ">4\tbyte\t\t1\t\t32-bit",
   ">4\tbyte\t\t2\t\t64-bit",
   ">5\tbyte\t\t1\t\tLSB",
   ">>16\tleshort\t\t1\t\trelocatable",
   ">>16\tleshort\t\t2\t\texecutable",
   ">>16\tleshort\t\t3\t\tshared object",
   ">>16\tleshort\t\t4\t\tcore file",
   ">>18\tleshort\t\t3\t\t\\b, Intel 80386",
   ">>18\tleshort\t\t40\t\t\\b, ARM",
   ">>18\tleshort\t\t62\t\t\\b, x86-64",
   ">>18\tleshort\t\t183\t\t\\b, ARM aarch64",
   ">5\tbyte\t\t2\t\tMSB",
   ">>16\tbeshort\t\t1\t\trelocatable",
   ">>16\tbeshort\t\t2\t\texecutable",
   ">>16\tbeshort\t\t3\t\tshared object",
   ">>16\tbeshort\t\t4\t\tcore file",
   "",
   "0\tstring\t\tMZ\t\tMS-DOS executable",
   "!:mime\tapplication/x-dosexec",
   "",
   "0\tbelong\t\t0xcafebabe\tcompiled Java class data",
   "!:mime\tapplication/x-java-applet",
   ">6\tbeshort\t\tx\t\t\\b, version %d",
   ">4\tbeshort\t\tx\t\t\\b.%d",
   "",
   "# Scripts",
   "0\tstring/w\t#!\\ /bin/sh\tPOSIX shell script text executable",
   "!:mime\ttext/x-shellscript",
   "0\tstring/w\t#!\\ /bin/bash\tBourne-Again shell script text executable",
   "!:mime\ttext/x-shellscript",
   "0\tstring/w\t#!\\ /usr/bin/env\\ bash\tBourne-Again shell script text executable",
   "!:mime\ttext/x-shellscript",
   "0\tstring/w\t#!\\ /usr/bin/env\\ python\tPython script text executable",
   "!:mime\ttext/x-script.python",
   "0\tstring/w\t#!\\ /usr/bin/python\tPython script text executable",
   "!:mime\ttext/x-script.python",
   "0\tstring/w\t#!\\ /usr/bin/perl\tPerl script text executable",
   "!:mime\ttext/x-perl",
   "",
   "# Databases",
   "0\tstring\t\tSQLite\\ format\\ 3\tSQLite 3.x database",
   "!:mime\tapplication/x-sqlite3",
   "",
   "# Audio and video",
   "0\tstring\t\tID3\t\tAudio file with ID3 version 2",
   "!:mime\taudio/mpeg",
   ">3\tbyte\t\tx\t\t\\b.%d",
   ">>&0\tbyte\t\tx\t\t\\b.%d",
   "",
   "0\tstring\t\tOggS\t\tOgg data",
   "!:mime\tapplication/ogg",
   "",
   "0\tstring\t\tfLaC\t\tFLAC audio bitstream data",
   "!:mime\taudio/flac",
   "",
   "0\tstring\t\tRIFF\t\tRIFF (little-endian) data",
   ">8\tstring\t\tWAVE\t\t\\b, WAVE audio",
   "!:mime\taudio/x-wav",
   ">8\tstring\t\tAVI\\ \t\t\\b, AVI",
   "!:mime\tvideo/x-msvideo"]

/-- The text of the bundled database: each line is ended by a line feed. -/
def builtinText : List Char := builtinLines.flatMap fun line => line.toList ++ ['\n']

def Database.builtin : Except DatabaseError Database := Database.read builtinText

end Hallmark.Signature
