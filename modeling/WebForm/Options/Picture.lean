/-
The two pictures of the buttons that show and hide a password.
-/

namespace WebForm.Options

/-- The picture of the button that hides a password. -/
def hidePicture : String :=
    "<svg xmlns=\x22http://www.w3.org/2000/svg\x22 fill=\x22none\x22 viewBox=\x220 0 24 24\x22 " ++
    "stroke-width=\x221.5\x22 stroke=\x22currentColor\x22 width=\x2224\x22 height=\x2224\x22>\n" ++
    "        <path stroke-linecap=\x22round\x22 stroke-linejoin=\x22round\x22 d=\x22M3.98 " ++
    "8.223A10.477 10.477 0 001.934 12C3.226 16.338 7.244 19.5 12 19.5c.993 0 " ++
    "1.953-.138 2.863-.395M6.228 6.228A10.45 10.45 0 0112 4.5c4.756 0 8.773 " ++
    "3.162 10.065 7.498a10.523 10.523 0 01-4.293 5.774M6.228 6.228L3 3m3.228 " ++
    "3.228l3.65 3.65m7.894 7.894L21 21m-3.228-3.228l-3.65-3.65m0 0a3 3 0 " ++
    "10-4.243-4.243m4.242 4.242L9.88 9.88\x22 />\n" ++
    "      </svg>"

/-- The picture of the button that shows a password. -/
def showPicture : String :=
    "<svg xmlns=\x22http://www.w3.org/2000/svg\x22 fill=\x22none\x22 viewBox=\x220 0 24 24\x22 " ++
    "stroke-width=\x221.5\x22 stroke=\x22currentColor\x22 width=\x2224\x22 height=\x2224\x22>\n" ++
    "        <path stroke-linecap=\x22round\x22 stroke-linejoin=\x22round\x22 d=\x22M2.036 " ++
    "12.322a1.012 1.012 0 010-.639C3.423 7.51 7.36 4.5 12 4.5c4.638 0 8.573 " ++
    "3.007 9.963 7.178.07.207.07.431 0 .639C20.577 16.49 16.64 19.5 12 " ++
    "19.5c-4.638 0-8.573-3.007-9.963-7.178z\x22 />\n" ++
    "        <path stroke-linecap=\x22round\x22 stroke-linejoin=\x22round\x22 d=\x22M15 12a3 3 " ++
    "0 11-6 0 3 3 0 016 0z\x22 />\n" ++
    "    </svg>"

end WebForm.Options
